import Clausal.Text.Blank
import Clausal.Text.Lines
import Mathlib.Data.List.Basic
import Mathlib.Tactic.Lemma

/-!
# Lines and fields of composed texts

What is put together from lines and fields is cut into them again: lines without a line break, each
ended by a line feed (`lines_flatMap`), and fields without the separator (`fields_join`). The words
before and after white space are cut apart from each other (`wordsFrom_append_blank`).
-/

namespace Clausal.Text

/-! ### White space -/

/-- A text without white space is left as it is. -/
lemma strip_eq_self {s : List Char} (h : ∀ c ∈ s, isBlank c = false) : strip s = s := by
  have hdrop : ∀ t : List Char, (∀ c ∈ t, isBlank c = false) → t.dropWhile isBlank = t := by
    intro t ht
    cases t with
    | nil => rfl
    | cons c rest => exact List.dropWhile_cons_of_neg (by simp [ht c])
  rw [strip, hdrop s h, stripRight, hdrop s.reverse (by simpa using h), List.reverse_reverse]

/-! ### Words -/

/-- White space ends a word, if there is one before it. -/
lemma wordsFrom_append_blank {c : Char} (h : isBlank c = true) (word s rest : List Char) :
    wordsFrom word (s ++ c :: rest) = wordsFrom word s ++ wordsFrom [] rest := by
  induction s generalizing word with
  | nil =>
    simp only [List.nil_append, wordsFrom, h, if_true]
    split <;> rfl
  | cons d s ih =>
    simp only [List.cons_append, wordsFrom]
    split
    · split
      · exact ih []
      · rw [ih, List.cons_append]
    · exact ih (d :: word)

/-! ### Lines -/

/-- A character that breaks no line comes to the line that is being read. -/
lemma linesFrom_cons {c : Char} (h : isLineBreak c = false) (line rest : List Char) :
    linesFrom line (c :: rest) = linesFrom (c :: line) rest := by
  rw [linesFrom]
  · simp [h]
  · rintro rest rfl
    cases h

/-- Characters that break no line come to the line that is being read. -/
lemma linesFrom_append {s : List Char} (h : ∀ c ∈ s, isLineBreak c = false)
    (line rest : List Char) : linesFrom line (s ++ rest) = linesFrom (s.reverse ++ line) rest := by
  induction s generalizing line with
  | nil => rfl
  | cons c s ih =>
    obtain ⟨hc, hs⟩ := List.forall_mem_cons.mp h
    rw [List.cons_append, linesFrom_cons hc, ih hs]
    simp

/-- A line feed ends a line, if no character before it does. -/
lemma lines_append_lineFeed {s : List Char} (h : ∀ c ∈ s, isLineBreak c = false)
    (rest : List Char) : lines (s ++ '\n' :: rest) = s :: lines rest := by
  have hfeed : linesFrom s.reverse ('\n' :: rest) = s.reverse.reverse :: linesFrom [] rest := rfl
  rw [lines, linesFrom_append h, List.append_nil, hfeed, List.reverse_reverse, lines]

/-- The lines of a text in which each line is ended by a line feed. -/
theorem lines_flatMap {ls : List (List Char)} (h : ∀ l ∈ ls, ∀ c ∈ l, isLineBreak c = false) :
    lines (ls.flatMap (· ++ ['\n'])) = ls := by
  induction ls with
  | nil => rfl
  | cons l rest ih =>
    obtain ⟨hl, hrest⟩ := List.forall_mem_cons.mp h
    simp only [List.flatMap_cons, List.append_assoc, List.singleton_append]
    rw [lines_append_lineFeed hl, ih hrest]

/-! ### Fields -/

/-- Cutting into fields is splitting at the separator. -/
lemma fields_eq_splitOn (separator : Char) (s : List Char) :
    fields separator s = s.splitOn separator := by
  induction s with
  | nil => simp [fields]
  | cons c rest ih =>
    obtain ⟨f, fs, hf⟩ := List.exists_cons_of_ne_nil (fields_ne_nil separator rest)
    rw [fields, hf, List.splitOn, List.splitOnP_cons_eq_if_modifyHead, ← List.splitOn, ← ih, hf]
    simp only [beq_iff_eq, List.modifyHead_cons]

/-- Joining fields is putting the separator between them. -/
lemma join_eq_intercalate (separator : List Char) (fs : List (List Char)) :
    join separator fs = separator.intercalate fs := by
  induction fs with
  | nil => rfl
  | cons f rest ih =>
    cases rest with
    | nil => simp [join]
    | cons g rest =>
      rw [List.intercalate_cons_cons, ← ih]
      rfl

/-- A joined text has no characters but those of the separator and of the fields. -/
lemma mem_join {separator : List Char} {fs : List (List Char)} {c : Char}
    (h : c ∈ join separator fs) : c ∈ separator ∨ ∃ f ∈ fs, c ∈ f := by
  induction fs with
  | nil => cases h
  | cons f rest ih =>
    cases rest with
    | nil => exact .inr ⟨f, List.mem_cons_self, h⟩
    | cons g rest =>
      have happend : join separator (f :: g :: rest) =
          f ++ (separator ++ join separator (g :: rest)) := List.append_assoc _ _ _
      rw [happend, List.mem_append, List.mem_append] at h
      rcases h with h | h | h
      · exact .inr ⟨f, List.mem_cons_self, h⟩
      · exact .inl h
      · exact (ih h).imp_right fun ⟨e, he, hc⟩ => ⟨e, List.mem_cons_of_mem f he, hc⟩

/-- The fields of a text that was joined from fields without the separator. -/
theorem fields_join {separator : Char} {fs : List (List Char)} (h : ∀ f ∈ fs, separator ∉ f)
    (hne : fs ≠ []) : fields separator (join [separator] fs) = fs := by
  rw [fields_eq_splitOn, join_eq_intercalate]
  exact List.splitOn_intercalate separator h hne

end Clausal.Text
