import Scaffold.Proofs.Text.Words
import Scaffold.Template

/-!
# Filters on the words of a name

Each filter for the case of names takes the words of a name, brings each of them into one of two forms, in
small letters or with a capital in front, and puts them together.  Three of them put a separator between the
words.  Behind a separator the words are found again, and a form of a word is found from the other form as from
the word itself; so a name keeps its words in these three, and it makes no difference to any case filter
whether one of them went first.
-/

namespace Scaffold.Template

/-- The filters that put a separator between words, by their names. -/
def separatingFilters : List String := ["snake", "snakeCase", "kebab", "kebabCase", "title"]

/-- The filters for the case of names, by their names. -/
def caseFilters : List String := separatingFilters ++ ["pascal", "pascalCase", "camel", "camelCase"]

/-- The forms of words: in small letters, and with a capital in front. -/
def wordForms : List (String → String) := [Text.lower, Text.capitalWord]

variable {name : String} {form form' : String → String} {ws : List String}

/-! ## Forms -/

theorem word_of_form (mem : form ∈ wordForms) {w : String} (word : Text.Word w.toList) :
    Text.Word (form w).toList := by
  simp only [wordForms, List.mem_cons, List.not_mem_nil, or_false] at mem
  rcases mem with rfl | rfl
  · exact word.of_lower
  · exact word.of_capitalWord

/-- A form of words is found from a form of them as from the words themselves. -/
theorem map_form_map_form (mem : form ∈ wordForms) (mem' : form' ∈ wordForms)
    (words : ∀ w ∈ ws, Text.Word w.toList) : (ws.map form').map form = ws.map form := by
  rw [List.map_map]
  apply List.map_congr_left
  intro w hw
  rw [Function.comp_apply]
  obtain ⟨lower, capital⟩ := (words w hw).forms
  simp only [wordForms, List.mem_cons, List.not_mem_nil, or_false] at mem mem'
  rcases mem with rfl | rfl <;> rcases mem' with rfl | rfl
  · exact lower.1
  · exact lower.2
  · exact capital.1
  · exact capital.2

/-! ## Filters -/

/-- A separating filter joins the words in a form of theirs. -/
theorem exists_separator (mem : name ∈ separatingFilters) :
    ∃ d, Text.Separates d ∧ ∃ form ∈ wordForms,
      filter? name = some fun x => Text.join (String.singleton d) ((Text.words x).map form) := by
  simp only [separatingFilters, List.mem_cons, List.not_mem_nil, or_false] at mem
  rcases mem with rfl | rfl | rfl | rfl | rfl
  · exact ⟨'_', ⟨by decide, by decide, by decide⟩, Text.lower, by simp [wordForms], rfl⟩
  · exact ⟨'_', ⟨by decide, by decide, by decide⟩, Text.lower, by simp [wordForms], rfl⟩
  · exact ⟨'-', ⟨by decide, by decide, by decide⟩, Text.lower, by simp [wordForms], rfl⟩
  · exact ⟨'-', ⟨by decide, by decide, by decide⟩, Text.lower, by simp [wordForms], rfl⟩
  · exact ⟨' ', ⟨by decide, by decide, by decide⟩, Text.capitalWord, by simp [wordForms], rfl⟩

/-- A case filter puts together the words in a form of theirs. -/
theorem exists_form (mem : name ∈ caseFilters) :
    ∃ form ∈ wordForms, ∃ assemble : List String → String,
      filter? name = some fun x => assemble ((Text.words x).map form) := by
  rcases List.mem_append.mp mem with separating | mem
  · obtain ⟨d, -, form, mem, same⟩ := exists_separator separating
    exact ⟨form, mem, Text.join (String.singleton d), same⟩
  simp only [List.mem_cons, List.not_mem_nil, or_false] at mem
  rcases mem with rfl | rfl | rfl | rfl
  · exact ⟨Text.capitalWord, by simp [wordForms], String.join, rfl⟩
  · exact ⟨Text.capitalWord, by simp [wordForms], String.join, rfl⟩
  · exact ⟨Text.capitalWord, by simp [wordForms], fun ws => Text.lowerFirst (String.join ws), rfl⟩
  · exact ⟨Text.capitalWord, by simp [wordForms], fun ws => Text.lowerFirst (String.join ws), rfl⟩

/-- Behind a separating filter the words of a name are found again, each in the form it got. -/
theorem words_separated (mem : form ∈ wordForms) {d : Char} (separates : Text.Separates d) (x : String) :
    Text.words (Text.join (String.singleton d) ((Text.words x).map form)) = (Text.words x).map form := by
  apply Text.words_join separates
  intro w hw
  obtain ⟨v, hv, rfl⟩ := List.mem_map.mp hw
  exact word_of_form mem (Text.word_of_mem_words hv)

/-- A case filter gives the same of a name whether or not a separating filter went first; so separating twice
is separating once, and a name keeps its words, capitals apart. -/
theorem caseFilters_agree {separating filter : String} (first : separating ∈ separatingFilters)
    (second : filter ∈ caseFilters) :
    ∃ s f, filter? separating = some s ∧ filter? filter = some f ∧
      ∀ x, f (s x) = f x ∧ s (s x) = s x ∧
        (Text.words (s x)).map Text.lower = (Text.words x).map Text.lower := by
  obtain ⟨d, separates, form, mem, hs⟩ := exists_separator first
  obtain ⟨form', mem', assemble, hf⟩ := exists_form second
  refine ⟨_, _, hs, hf, fun x => ?_⟩
  have words : ∀ w ∈ Text.words x, Text.Word w.toList := fun w => Text.word_of_mem_words
  refine ⟨?_, ?_, ?_⟩
  · show assemble ((Text.words (Text.join _ _)).map form') = assemble ((Text.words x).map form')
    rw [words_separated mem separates, map_form_map_form mem' mem words]
  · show Text.join _ ((Text.words (Text.join _ _)).map form) = Text.join _ _
    rw [words_separated mem separates, map_form_map_form mem mem words]
  · show (Text.words (Text.join _ _)).map Text.lower = _
    rw [words_separated mem separates, map_form_map_form (by simp [wordForms]) mem words]

/-- A name with an acronym and a digit is given capitals from its own spelling as from the one in small letters. -/
theorem acronym_and_digit :
    ∃ s f, filter? "snake" = some s ∧ filter? "pascal" = some f ∧
      s "parseHTTP2Reply" = "parse_http_2_reply" ∧ f "parse_http_2_reply" = f "parseHTTP2Reply" ∧
        f "parseHTTP2Reply" = "ParseHttp2Reply" := by
  obtain ⟨s, f, hs, hf, agree⟩ := caseFilters_agree (by decide : "snake" ∈ separatingFilters)
    (by decide : "pascal" ∈ caseFilters)
  have small : s "parseHTTP2Reply" = "parse_http_2_reply" := by
    cases hs
    decide
  have capital : f "parseHTTP2Reply" = "ParseHttp2Reply" := by
    cases hf
    decide
  obtain ⟨same, -, -⟩ := agree "parseHTTP2Reply"
  rw [small] at same
  exact ⟨s, f, hs, hf, small, same, capital⟩

end Scaffold.Template
