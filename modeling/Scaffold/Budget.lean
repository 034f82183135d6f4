import Scaffold.Number.Layout
import Scaffold.Record
import Scaffold.Text.Search

/-!
# Budgets

The accounts of the model calls of one session: how many tokens were used and what they cost, and
the limits that a further call is held to.  Prices are per million tokens, apart for what goes in and
what comes out; a model that has none is priced like the longest listed name that its own name starts
with, and otherwise costs nothing.
-/

namespace Scaffold

/-- What one call used. -/
structure Usage where
  input : Int := 0
  output : Int := 0
  deriving DecidableEq, Inhabited, Repr

namespace Usage

/-- All tokens. -/
def total (u : Usage) : Int := u.input + u.output

/-- What two calls used together. -/
def add (u v : Usage) : Usage := ⟨u.input + v.input, u.output + v.output⟩

end Usage

/-- Limits for a session; one that is not set does not bind. -/
structure Limits where
  maxTokens : Option Int := none
  maxCost : Option Number := none
  warnAt : Option Number := none
  deriving DecidableEq, Inhabited, Repr

/-- A price for what goes in and one for what comes out, per million tokens. -/
structure Price where
  input : Number
  output : Number
  deriving DecidableEq, Inhabited, Repr

/-- The prices of the known models. -/
def listPrices : Record Price :=
  let decimal (digits scale : Nat) : Number := .float (.ofDecimal false digits (-(scale : Int)))
  [("claude-sonnet-4-5", ⟨decimal 3 0, decimal 15 0⟩),
    ("claude-haiku-3-5", ⟨decimal 8 1, decimal 4 0⟩),
    ("gpt-4o", ⟨decimal 25 1, decimal 10 0⟩),
    ("gpt-4o-mini", ⟨decimal 15 2, decimal 6 1⟩)]

/-- A rough count of the tokens of a text: four characters each, rounded up. -/
def estimateTokens (s : String) : Nat := (s.length + 3) / 4

/-- The accounts of a session. -/
structure Ledger where
  prices : Record Price := listPrices
  tokens : Int := 0
  cost : Binary64 := .zero
  calls : Nat := 0
  /-- Whether the warning threshold was passed. -/
  warned : Bool := false
  deriving DecidableEq, Inhabited, Repr

namespace Ledger

/-- Why a call is refused. -/
inductive Refusal where
  | tokens (used : Int) (estimate : Nat) (limit : Int)
  | cost (spent : Binary64) (limit : Number)
  deriving DecidableEq, Inhabited, Repr

/-- The wording of a refusal. -/
def Refusal.message : Refusal → String
  | .tokens used estimate limit =>
    "Token budget exceeded: " ++ intText used ++ " used + ~" ++ toString estimate ++
      " requested > " ++ intText limit
  | .cost spent limit =>
    "Cost budget exceeded: $" ++ spent.fixed 4 ++ " >= $" ++ limit.toBinary64.fixed 4

/-- The longest listed name that a model's name starts with, the first of several. -/
def longestStart? (prices : Record Price) (model : String) : Option (String × Price) :=
  (prices.filter fun p => Text.startsWith p.1 model).foldl
    (fun best p => match best with
      | some b => if b.1.length < p.1.length then some p else some b
      | none => some p)
    none

/-- The price of a model. -/
def priceOf? (l : Ledger) (model : String) : Option Price :=
  (l.prices.get? model).or ((longestStart? l.prices model).map (·.2))

/-- What a use of a model costs. -/
def costOf (l : Ledger) (model : String) (u : Usage) : Binary64 :=
  match l.priceOf? model with
  | none => .zero
  | some p => (((Number.int u.input).mul p.input).add ((Number.int u.output).mul p.output)).divNat 1000000

/-- Enters a call. -/
def record (l : Ledger) (model : String) (u : Usage) : Ledger :=
  { l with tokens := l.tokens + u.total, cost := l.cost.add (l.costOf model u), calls := l.calls + 1 }

/-- Why a call of an estimated size would break a limit. -/
def refusal? (l : Ledger) (limits : Limits) (estimate : Nat) : Option Refusal :=
  match limits.maxTokens.filter fun n => n < l.tokens + estimate with
  | some n => some (.tokens l.tokens estimate n)
  | none => (limits.maxCost.filter fun c => c.le (.float l.cost)).map (.cost l.cost)

/-- The accounts after a check: a spend past the threshold is noted once. -/
def noteSpend (l : Ledger) (limits : Limits) : Ledger :=
  if limits.warnAt.any fun w => w.le (.float l.cost) then { l with warned := true } else l

/-- Checks that a call of an estimated size breaks no limit. -/
def check (l : Ledger) (limits : Limits) (estimate : Nat) : Except Refusal Ledger :=
  match l.refusal? limits estimate with
  | some r => .error r
  | none => .ok (l.noteSpend limits)

end Ledger

end Scaffold
