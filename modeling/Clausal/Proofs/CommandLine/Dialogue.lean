import Clausal.Proofs.CommandLine.Answers

/-!
# The dialogue of the menu

A dialogue is a sequence of rounds, each of which takes some words of the input and writes what a
command on a formula writes. Main statement: the menu leads the dialogue of its input, which ends
with the sentence of leaving at the first word that asks for it or when the words run out, unless a
path with a zero character is given before (`menu_leads_dialogue`).
-/

namespace Clausal.CommandLine.Menu

variable {fetch : Path → Content}

/-- What is asked up to the path of a formula. -/
def asked : String := listing ++ selectionPrompt ++ pathPrompt

/-- Words for the values of `n` variables, completed by words for false if there are too few. -/
def padded (n : Nat) (values : List String) : List String :=
  values ++ List.replicate (n - values.length) "false"

/-- A round of the dialogue: the words that it takes, those that are left, and what is written. -/
inductive Round (fetch : Path → Content) : List String → List String → String → Prop where
  | unknown {selection left} :
    selection ∉ ["1", "2", "3", "4", "5", "6", "7"] →
    Round fetch [selection] left (listing ++ selectionPrompt ++ "Incorrect input.\n")
  | noPath {selection} :
    selection ∈ ["1", "2", "3", "4", "5", "6"] →
    Round fetch [selection] [] asked
  | classify {selection m path left} :
    (selection, m) ∈ [("2", Method.twoSat), ("3", .horn)] →
    '\x00' ∉ path.toList →
    Round fetch [selection, path] left
      (asked ++ ((Command.classify m path).transcript fetch "").output)
  | solve {selection m path left} :
    (selection, m) ∈ [("4", Method.general), ("5", .twoSat), ("6", .horn)] →
    '\x00' ∉ path.toList →
    Round fetch [selection, path] left
      (asked ++ ((Command.solve path (some (.fixed m))).transcript fetch "").output)
  | unreadable {path left} :
    '\x00' ∉ path.toList →
    (¬ ∃ f, FormulaAt fetch path f) →
    Round fetch ["1", path] left (asked ++ ((Command.check path []).transcript fetch "").output)
  | check {path values left f} :
    '\x00' ∉ path.toList →
    FormulaAt fetch path f →
    values.length = f.numVariables ∨ values.length < f.numVariables ∧ left = [] →
    Round fetch ("1" :: path :: values) left
      (asked ++ (valuePrompts f.numVariables ++
        ((Command.check path (padded f.numVariables values)).transcript fetch "").output))

/-- A dialogue: the words that it takes, those that are left at its end, what is written, and how it
ends. -/
inductive Dialogue (fetch : Path → Content) :
    List String → List String → String → Except Error Nat → Prop where
  | exhausted :
    Dialogue fetch [] [] (listing ++ selectionPrompt ++ farewell) (.ok exitOk)
  | close {left} :
    Dialogue fetch ["7"] left (listing ++ selectionPrompt ++ farewell) (.ok exitOk)
  | zero {selection path left} :
    selection ∈ ["1", "2", "3", "4", "5", "6"] →
    '\x00' ∈ path.toList →
    Dialogue fetch [selection, path] left asked (.error .zeroInPath)
  | round {taken taken' left text text' result} :
    Round fetch taken (taken' ++ left) text →
    Dialogue fetch taken' left text' result →
    Dialogue fetch (taken ++ taken') left (text ++ text') result

/-- The dialogue of some words when the files stay as they are. -/
def lead (fetch : Path → Content) (words : List String) : Transcript Nat :=
  Id.run (rounds fetch words)

/-! ### Selections -/

/-- The numbers from 1 to 7 are the words that select something. -/
lemma ofWord?_eq_none_iff {selection : String} :
    Selection.ofWord? selection = none ↔ selection ∉ ["1", "2", "3", "4", "5", "6", "7"] := by
  unfold Selection.ofWord?
  split <;> simp_all

/-- The word 1 alone selects the check of values. -/
lemma ofWord?_eq_check_iff {selection : String} :
    Selection.ofWord? selection = some .check ↔ selection = "1" := by
  unfold Selection.ofWord?
  split <;> simp_all

/-- The word 7 alone asks to leave the menu. -/
lemma ofWord?_eq_close_iff {selection : String} :
    Selection.ofWord? selection = some .close ↔ selection = "7" := by
  unfold Selection.ofWord?
  split <;> simp_all

/-- The words 2 and 3 ask for the shape of a formula. -/
lemma ofWord?_eq_classify_iff {selection : String} {m : Method} :
    Selection.ofWord? selection = some (.classify m) ↔
      (selection, m) ∈ [("2", Method.twoSat), ("3", .horn)] := by
  unfold Selection.ofWord?
  split <;> simp_all [eq_comm]

/-- The words from 4 to 6 select a method to solve a formula by. -/
lemma ofWord?_eq_solve_iff {selection : String} {m : Method} :
    Selection.ofWord? selection = some (.solve m) ↔
      (selection, m) ∈ [("4", Method.general), ("5", .twoSat), ("6", .horn)] := by
  unfold Selection.ofWord?
  split <;> simp_all [eq_comm]

/-- The words that ask for a path are those from 1 to 6. -/
lemma exists_operation_iff {selection : String} :
    (∃ operation, Selection.ofWord? selection = some operation ∧ operation ≠ .close) ↔
      selection ∈ ["1", "2", "3", "4", "5", "6"] := by
  unfold Selection.ofWord?
  split <;> simp_all

/-! ### Values -/

/-- Values that are not too many are completed to one for each variable. -/
lemma length_padded {n : Nat} {values : List String} (h : values.length ≤ n) :
    (padded n values).length = n := by
  rw [padded, List.length_append, List.length_replicate]
  exact Nat.add_sub_cancel' h

/-- The values asked for are the next words, or words for false where the input has run out. -/
lemma valuesOf_append {n : Nat} {values left : List String}
    (h : values.length = n ∨ values.length < n ∧ left = []) :
    valuesOf n (values ++ left) = (padded n values).map Settings.valueOf := by
  have hlen : (padded n values).length = n := length_padded (by omega)
  have hfalse : Settings.valueOf "false" = false := by decide
  apply List.ext_getElem
  · simp [valuesOf, hlen]
  · intro i hi hi'
    have hin : i < n := by simpa [valuesOf] using hi
    simp only [valuesOf, padded, List.getElem_map, List.getElem_range]
    by_cases hv : i < values.length
    · rw [List.getElem?_append_left hv, List.getElem_append_left hv, List.getElem?_eq_getElem hv,
        Option.map_some, Option.getD_some]
    · obtain ⟨-, rfl⟩ := h.resolve_left (by omega)
      rw [List.getElem_append_right (Nat.not_lt.mp hv), List.append_nil,
        List.getElem?_eq_none (Nat.not_lt.mp hv), Option.map_none, Option.getD_none,
        List.getElem_replicate, hfalse]

/-- The words behind the values are left for the next round. -/
lemma drop_append {n : Nat} {values left : List String}
    (h : values.length = n ∨ values.length < n ∧ left = []) :
    (values ++ left).drop n = left := by
  rcases h with rfl | ⟨hlt, rfl⟩
  · exact List.drop_left
  · rw [List.append_nil, List.drop_eq_nil_iff]
    exact Nat.le_of_lt hlt

/-! ### Operations -/

/-- Asking for the shape of a formula takes no words behind the path. -/
lemma perform_classify (W : Workspace) (words : List String) (m : Method) :
    (perform W words (.classify m)).result = .ok 0 := rfl

/-- Solving a formula that was built of clauses takes no words behind the path. -/
lemma perform_solve {n : Nat} {W : Workspace} (h : W.Built n) (words : List String) (m : Method) :
    (perform W words (.solve m)).result = .ok 0 := by
  obtain ⟨code, hcode⟩ := (saySolution_solved h (.fixed m)).exists_code
  simp only [perform, hcode]
  rfl

/-- Checking asks for one value after the other, takes the words for them, and writes what a check
of the completed values writes. -/
lemma perform_check {n : Nat} {W : Workspace} {values left : List String} (h : W.Built n)
    (hvalues : values.length = n ∨ values.length < n ∧ left = []) :
    (perform W (values ++ left) .check).output = valuePrompts n ++
        (sayCheckWords W.toCnf (padded n values)).output ∧
      (perform W (values ++ left) .check).result = .ok n := by
  have hn : W.formula.numVariables = n := h.coherent.numVariables_eq
  have hlen : (padded n values).length = W.toCnf.numVariables :=
    (length_padded (by omega)).trans hn.symm
  have hsay : sayCheck W.toCnf (valuesOf n (values ++ left)) =
      sayCheckWords W.toCnf (padded n values) := by
    rw [sayCheckWords, if_pos hlen, valuesOf_append hvalues]
  obtain ⟨code, hcode⟩ := (sayCheckWords_checked h.coherent.inRange (padded n values)).exists_code
  simp only [perform, hn, hsay, hcode, true_and]
  rfl

/-! ### One round -/

/-- Where the words have run out, the menu is left. -/
lemma lead_nil : lead fetch [] = .say (listing ++ selectionPrompt ++ farewell) exitOk := by
  simp [lead, rounds]

/-- After a word that selects nothing comes the next round. -/
lemma lead_unknown {selection : String} {rest : List String}
    (h : Selection.ofWord? selection = none) :
    lead fetch (selection :: rest) =
      (lead fetch rest).after (listing ++ selectionPrompt ++ "Incorrect input.\n") [] := by
  rw [lead, rounds]
  simp only [h]
  rfl

/-- The menu is left when this is selected, whatever words are left. -/
lemma lead_close {rest : List String} :
    lead fetch ("7" :: rest) = .say (listing ++ selectionPrompt ++ farewell) exitOk := by
  rw [lead, rounds]
  rfl

/-- Where the words run out before the path, the next round finds none. -/
lemma lead_noPath {selection : String} {operation : Selection}
    (h : Selection.ofWord? selection = some operation) (hne : operation ≠ .close) :
    lead fetch [selection] = (lead fetch []).after asked [] := by
  rw [lead, rounds]
  cases operation with
  | close => exact absurd rfl hne
  | _ =>
    simp only [h]
    rfl

/-- A round with a path writes what the operation writes, and goes on behind the words that it used
unless it was broken off. -/
lemma lead_path {selection path : String} {operation : Selection} {rest : List String}
    {t : Transcript Nat} (h : Selection.ofWord? selection = some operation)
    (hne : operation ≠ .close)
    (ht : (withFormula path (Id.run (loadAt fetch path)) 0 fun W => perform W rest operation) = t) :
    lead fetch (selection :: path :: rest) =
      match t.result with
      | .error e => ⟨asked ++ t.output, t.events, .error e⟩
      | .ok used => (lead fetch (rest.drop used)).after (asked ++ t.output) t.events := by
  rw [lead, rounds]
  cases operation with
  | close => exact absurd rfl hne
  | _ =>
    simp only [h, Id.run_bind, ht]
    cases t.result with
    | error e => rfl
    | ok used => rfl

/-- A round goes on with the words that the operation left. -/
lemma lead_of_ok {selection path : String} {operation : Selection} {rest : List String}
    {used : Nat} {output : String} (h : Selection.ofWord? selection = some operation)
    (hne : operation ≠ .close)
    (hout : (withFormula path (Id.run (loadAt fetch path)) 0
      fun W => perform W rest operation).output = output)
    (hused : (withFormula path (Id.run (loadAt fetch path)) 0
      fun W => perform W rest operation).result = .ok used) :
    (lead fetch (selection :: path :: rest)).output =
        asked ++ output ++ (lead fetch (rest.drop used)).output ∧
      (lead fetch (selection :: path :: rest)).result = (lead fetch (rest.drop used)).result := by
  simp only [lead_path h hne rfl, hused, hout, Transcript.output_after, Transcript.result_after,
    and_self]

/-- A round takes its words, writes its text and goes on with the words that are left. -/
lemma Round.lead_eq {taken left : List String} {text : String} (h : Round fetch taken left text)
    (hfiles : Textual fetch) :
    (lead fetch (taken ++ left)).output = text ++ (lead fetch left).output ∧
      (lead fetch (taken ++ left)).result = (lead fetch left).result := by
  cases h with
  | unknown hselection =>
    rw [List.singleton_append, lead_unknown (ofWord?_eq_none_iff.mpr hselection)]
    exact ⟨Transcript.output_after _ _ _, Transcript.result_after _ _ _⟩
  | noPath hselection =>
    obtain ⟨operation, h, hne⟩ := exists_operation_iff.mpr hselection
    rw [List.append_nil, lead_noPath h hne]
    exact ⟨Transcript.output_after _ _ _, Transcript.result_after _ _ _⟩
  | @classify selection m path left hselection hzero =>
    have hload := loads_of_accessible (hfiles.accessible hzero)
    have hout : (withFormula path (Id.run (loadAt fetch path)) 0
        fun W => perform W left (.classify m)).output =
          ((Command.classify m path).transcript fetch "").output := by
      rw [transcript_classify_eq]
      exact withFormula_output_congr fun W => rfl
    have hused := hload.withFormula_result fun n W _ => perform_classify W left m
    have hlead := lead_of_ok (ofWord?_eq_classify_iff.mpr hselection) (by simp) hout hused
    rwa [List.drop_zero] at hlead
  | @solve selection m path left hselection hzero =>
    have hload := loads_of_accessible (hfiles.accessible hzero)
    have hout : (withFormula path (Id.run (loadAt fetch path)) 0
        fun W => perform W left (.solve m)).output =
          ((Command.solve path (some (.fixed m))).transcript fetch "").output := by
      rw [transcript_solve_eq]
      exact withFormula_output_congr fun W => rfl
    have hused := hload.withFormula_result fun n W hbuilt => perform_solve hbuilt left m
    have hlead := lead_of_ok (ofWord?_eq_solve_iff.mpr hselection) (by simp) hout hused
    rwa [List.drop_zero] at hlead
  | @unreadable path left hzero hnone =>
    have hload := loads_of_accessible (hfiles.accessible hzero)
    obtain ⟨reason, events, hload⟩ := hload.eq_unreadable hnone
    have hout : (withFormula path (Id.run (loadAt fetch path)) 0
        fun W => perform W left .check).output =
          ((Command.check path []).transcript fetch "").output := by
      rw [transcript_check_eq, hload, withFormula_unreadable, withFormula_unreadable]
    have hused : (withFormula path (Id.run (loadAt fetch path)) 0
        fun W => perform W left .check).result = .ok 0 := by
      rw [hload, withFormula_unreadable]
    have hlead := lead_of_ok (ofWord?_eq_check_iff.mpr rfl) (by simp) hout hused
    rwa [List.drop_zero] at hlead
  | @check path values left f hzero hf hvalues =>
    have hload := loads_of_accessible (hfiles.accessible hzero)
    obtain ⟨W, events, hload, hbuilt, rfl⟩ := hload.eq_formula hf
    obtain ⟨hperformed, hresult⟩ := perform_check hbuilt hvalues
    have hout : (withFormula path (Id.run (loadAt fetch path)) 0
        fun W => perform W (values ++ left) .check).output =
          valuePrompts W.toCnf.numVariables ++ ((Command.check path
            (padded W.toCnf.numVariables values)).transcript fetch "").output := by
      rw [transcript_check_eq, hload, withFormula_formula, withFormula_formula]
      simp only [Transcript.output_after, String.empty_append, hperformed]
    have hused : (withFormula path (Id.run (loadAt fetch path)) 0
        fun W => perform W (values ++ left) .check).result = .ok W.toCnf.numVariables := by
      rw [hload, withFormula_formula]
      exact hresult
    have hlead := lead_of_ok (ofWord?_eq_check_iff.mpr rfl) (by simp) hout hused
    rwa [drop_append hvalues] at hlead

/-! ### All rounds -/

/-- A path with a zero character breaks the menu off after it was asked for. -/
lemma lead_zero {selection path : String} {rest : List String}
    (h : selection ∈ ["1", "2", "3", "4", "5", "6"]) (hzero : '\x00' ∈ path.toList) :
    (lead fetch (selection :: path :: rest)).output = asked ∧
      (lead fetch (selection :: path :: rest)).result = .error .zeroInPath := by
  obtain ⟨operation, hoperation, hne⟩ := exists_operation_iff.mpr h
  have hwith : (withFormula path (Id.run (loadAt fetch path)) 0
      fun W => perform W rest operation) = ⟨"", [], .error .zeroInPath⟩ := by
    rw [loadAt_eq_of_zero hzero]
    rfl
  rw [lead_path hoperation hne hwith]
  exact ⟨String.append_empty, rfl⟩

/-- The menu leads every dialogue that starts with its words. -/
lemma Dialogue.lead_eq {taken left : List String} {text : String} {result : Except Error Nat}
    (h : Dialogue fetch taken left text result) (hfiles : Textual fetch) :
    (lead fetch (taken ++ left)).output = text ∧ (lead fetch (taken ++ left)).result = result := by
  induction h with
  | exhausted =>
    rw [List.append_nil, lead_nil]
    exact ⟨rfl, rfl⟩
  | close =>
    rw [List.singleton_append, lead_close]
    exact ⟨rfl, rfl⟩
  | zero hselection hzero => exact lead_zero hselection hzero
  | round hround _ ih =>
    obtain ⟨hout, hresult⟩ := ih
    obtain ⟨hout', hresult'⟩ := hround.lead_eq hfiles
    rw [List.append_assoc, hout', hresult', hout, hresult]
    exact ⟨rfl, rfl⟩

/-- The words that are left make a round, unless they ask to leave or give a path with a zero
character. -/
lemma exists_round {selection : String} {rest : List String} (hclose : selection ≠ "7")
    (hzero : ∀ path rest', rest = path :: rest' →
      selection ∈ ["1", "2", "3", "4", "5", "6"] → '\x00' ∉ path.toList) :
    ∃ taken left text, selection :: rest = taken ++ left ∧ taken ≠ [] ∧
      Round fetch taken left text := by
  cases h : Selection.ofWord? selection with
  | none => exact ⟨_, rest, _, rfl, by simp, .unknown (ofWord?_eq_none_iff.mp h)⟩
  | some operation =>
    have hne : operation ≠ .close := by
      rintro rfl
      exact hclose (ofWord?_eq_close_iff.mp h)
    have hselection := exists_operation_iff.mp ⟨operation, h, hne⟩
    cases rest with
    | nil => exact ⟨_, [], _, rfl, by simp, .noPath hselection⟩
    | cons path rest =>
      have hpath := hzero path rest rfl hselection
      cases operation with
      | close => exact absurd rfl hne
      | classify m =>
        exact ⟨_, rest, _, rfl, by simp, .classify (ofWord?_eq_classify_iff.mp h) hpath⟩
      | solve m =>
        exact ⟨_, rest, _, rfl, by simp, .solve (ofWord?_eq_solve_iff.mp h) hpath⟩
      | check =>
        obtain rfl := ofWord?_eq_check_iff.mp h
        -- how many words a check takes is known from the formula at the path only
        by_cases hf : ∃ f, FormulaAt fetch path f
        · obtain ⟨f, hf⟩ := hf
          refine ⟨"1" :: path :: rest.take f.numVariables, rest.drop f.numVariables, _, ?_,
            by simp, .check hpath hf ?_⟩
          · simp
          · by_cases hlen : f.numVariables ≤ rest.length
            · exact .inl (List.length_take_of_le hlen)
            · refine .inr ⟨?_, ?_⟩
              · rw [List.length_take]
                omega
              · rw [List.drop_eq_nil_iff]
                omega
        · exact ⟨_, rest, _, rfl, by simp, .unreadable hpath hf⟩

/-- Every sequence of words starts with a dialogue. -/
lemma exists_dialogue (fetch : Path → Content) (words : List String) :
    ∃ taken left text result, words = taken ++ left ∧ Dialogue fetch taken left text result := by
  -- a round takes at least its selection, so it leaves fewer words
  induction hlen : words.length using Nat.strongRecOn generalizing words with
  | ind k ih =>
    cases words with
    | nil => exact ⟨[], [], _, _, rfl, .exhausted⟩
    | cons selection rest =>
      by_cases hclose : selection = "7"
      · subst hclose
        exact ⟨["7"], rest, _, _, rfl, .close⟩
      · by_cases hzero : ∃ path rest', rest = path :: rest' ∧
            selection ∈ ["1", "2", "3", "4", "5", "6"] ∧ '\x00' ∈ path.toList
        · obtain ⟨path, rest', rfl, hselection, hzero⟩ := hzero
          exact ⟨[selection, path], rest', _, _, rfl, .zero hselection hzero⟩
        · obtain ⟨taken, left, text, hwords, hne, hround⟩ : ∃ taken left text,
              selection :: rest = taken ++ left ∧ taken ≠ [] ∧ Round fetch taken left text := by
            apply exists_round hclose
            intro path rest' hrest hselection hpath
            exact hzero ⟨path, rest', hrest, hselection, hpath⟩
          have hlt : left.length < k := by
            have hpos := List.length_pos_iff.mpr hne
            rw [← hlen, hwords, List.length_append]
            omega
          obtain ⟨taken', left', text', result, rfl, hdialogue⟩ := ih left.length hlt left rfl
          refine ⟨taken ++ taken', left', _, result, ?_, .round hround hdialogue⟩
          rw [hwords, List.append_assoc]

/-- A round that leaves words leaves any other words in their place. -/
lemma Round.of_left {taken left : List String} {text : String} (h : Round fetch taken left text)
    (hne : left ≠ []) (left' : List String) : Round fetch taken left' text := by
  cases h with
  | unknown hselection => exact .unknown hselection
  | noPath => exact absurd rfl hne
  | classify hselection hzero => exact .classify hselection hzero
  | solve hselection hzero => exact .solve hselection hzero
  | unreadable hzero hnone => exact .unreadable hzero hnone
  | check hzero hf hvalues => exact .check hzero hf (.inl (hvalues.resolve_right fun h => hne h.2))

/-- A dialogue that leaves words leaves any other words in their place. -/
lemma Dialogue.of_left {taken left : List String} {text : String} {result : Except Error Nat}
    (h : Dialogue fetch taken left text result) (hne : left ≠ []) (left' : List String) :
    Dialogue fetch taken left' text result := by
  induction h with
  | exhausted => exact absurd rfl hne
  | close => exact .close
  | zero hselection hzero => exact .zero hselection hzero
  | @round taken taken' left text text' result hround _ ih =>
    exact .round (hround.of_left (List.append_ne_nil_of_right_ne_nil taken' hne) _) (ih hne)

/-- A dialogue ends when the words have run out, at the word that asks for it, or at a path with a
zero character. -/
lemma Dialogue.ends {taken left : List String} {text : String} {result : Except Error Nat}
    (h : Dialogue fetch taken left text result) :
    (result = .ok exitOk ∧ (left = [] ∨ ∃ before, taken = before ++ ["7"]) ∧
      ∃ before, text = before ++ farewell) ∨
    (result = .error .zeroInPath ∧
      (∃ before path, taken = before ++ [path] ∧ '\x00' ∈ path.toList) ∧
      ∃ before, text = before ++ pathPrompt) := by
  induction h with
  | exhausted => exact .inl ⟨rfl, .inl rfl, _, rfl⟩
  | close => exact .inl ⟨rfl, .inr ⟨[], rfl⟩, _, rfl⟩
  | @zero selection path _ _ hzero => exact .inr ⟨rfl, ⟨[selection], path, rfl, hzero⟩, _, rfl⟩
  | @round taken _ _ text _ _ _ _ ih =>
    rcases ih with ⟨hresult, hend, before, rfl⟩ | ⟨hresult, ⟨before', path, rfl, hzero⟩, before, rfl⟩
    · refine .inl ⟨hresult, ?_, text ++ before, String.append_assoc.symm⟩
      rcases hend with hleft | ⟨before', rfl⟩
      · exact .inl hleft
      · exact .inr ⟨taken ++ before', (List.append_assoc _ _ _).symm⟩
    · refine .inr ⟨hresult, ⟨taken ++ before', path, ?_, hzero⟩, text ++ before, ?_⟩
      · rw [List.append_assoc]
      · rw [String.append_assoc]

/-- The menu greets, and then leads the dialogue of the words of its input. -/
lemma transcript_menu_eq (fetch : Path → Content) (input : String) :
    Command.menu.transcript fetch input = (lead fetch (Text.words input)).after greeting [] := by
  simp only [Command.transcript, Command.run, run, lead, Id.run_bind]
  rfl

/-- For files that are missing or hold text. The menu leads a dialogue with the first words of its
input. It ends with zero and the sentence of leaving, at the first selection that asks for it or when
the words have run out, unless a path has a zero character; there it breaks off. The words that are
left do not count. -/
theorem menu_leads_dialogue (hfiles : Textual fetch) (input : String) :
    let t := Command.menu.transcript fetch input
    (∃ taken left text, Text.words input = taken ++ left ∧ t.output = greeting ++ text ∧
      Dialogue fetch taken left text t.result ∧
      ((t.result = .ok exitOk ∧ (left = [] ∨ ∃ before, taken = before ++ ["7"]) ∧
          ∃ before, text = before ++ farewell) ∨
        (t.result = .error .zeroInPath ∧
          (∃ before path, taken = before ++ [path] ∧ '\x00' ∈ path.toList) ∧
          ∃ before, text = before ++ pathPrompt)) ∧
      (left ≠ [] → ∀ input' left', Text.words input' = taken ++ left' →
        (Command.menu.transcript fetch input').output = t.output ∧
        (Command.menu.transcript fetch input').result = t.result)) ∧
    ((∀ word ∈ Text.words input, '\x00' ∉ word.toList) → t.result = .ok exitOk) := by
  intro t
  obtain ⟨taken, left, text, result, hwords, h⟩ := exists_dialogue fetch (Text.words input)
  obtain ⟨hout, hresult⟩ := h.lead_eq hfiles
  have ht : t = (lead fetch (taken ++ left)).after greeting [] := by
    rw [← hwords]
    exact transcript_menu_eq fetch input
  have htext : t.output = greeting ++ text := by
    rw [ht, Transcript.output_after, hout]
  have hend : t.result = result := by
    rw [ht, Transcript.result_after, hresult]
  rw [hend]
  refine ⟨⟨taken, left, text, hwords, htext, h, h.ends, ?_⟩, ?_⟩
  · intro hne input' left' hwords'
    obtain ⟨hout', hresult'⟩ := (h.of_left hne left').lead_eq hfiles
    rw [transcript_menu_eq, hwords', htext]
    exact ⟨by rw [Transcript.output_after, hout'], by rw [Transcript.result_after, hresult']⟩
  · intro hnone
    rcases h.ends with ⟨hok, -⟩ | ⟨-, ⟨before, path, rfl, hzero⟩, -⟩
    · exact hok
    · exact absurd hzero (hnone path (by simp [hwords]))

/-- A number that selects nothing, a formula that is solved, and leaving before the last word. -/
def selections : String := "9\n5\nxor\n7\n1\n"

/-- In the example the menu is left with the sentence of leaving. -/
theorem menu_leads_dialogue_selections :
    Textual exclusiveFile ∧
    (Command.menu.transcript exclusiveFile selections).result = .ok exitOk ∧
    ∃ before, (Command.menu.transcript exclusiveFile selections).output = before ++ farewell := by
  obtain ⟨⟨taken, left, text, -, htext, -, hends, -⟩, hok⟩ :=
    menu_leads_dialogue textual_exclusiveFile selections
  have hresult := hok (by decide)
  refine ⟨textual_exclusiveFile, hresult, ?_⟩
  rcases hends with ⟨-, -, before, rfl⟩ | ⟨herr, -⟩
  · exact ⟨greeting ++ before, by rw [htext, String.append_assoc]⟩
  · cases hresult.symm.trans herr

/-- No file can be opened. -/
def noFiles (_ : Path) : Content := .error .missing

/-- Where there are no files, the menu breaks off at a path with a zero character, while it goes on
after any other path and is left when this is asked for. -/
theorem menu_breaks_off_zero :
    (Command.menu.transcript noFiles "2\na\x00b\n7\n").result = .error .zeroInPath ∧
    (Command.menu.transcript noFiles "2\na\x00b\n7\n").output = greeting ++ asked ∧
    (Command.menu.transcript noFiles "2\nab\n7\n").result = .ok exitOk := by
  have hfiles : Textual noFiles := by
    intro p bytes h
    cases h
  have hzero : Text.words "2\na\x00b\n7\n" = ["2", "a\x00b", "7"] := by decide
  have hother : Text.words "2\nab\n7\n" = ["2", "ab"] ++ ["7"] := by decide
  obtain ⟨hout, hresult⟩ : (lead noFiles ["2", "a\x00b", "7"]).output = asked ∧
      (lead noFiles ["2", "a\x00b", "7"]).result = .error .zeroInPath :=
    lead_zero (by decide) (by decide)
  have hround : Round noFiles ["2", "ab"] ["7"] _ :=
    .classify (List.mem_cons_self : ("2", Method.twoSat) ∈ _) (by decide)
  have hdialogue := Dialogue.round hround (.close : Dialogue noFiles ["7"] [] _ _)
  obtain ⟨-, hresult'⟩ := hdialogue.lead_eq hfiles
  rw [List.append_nil] at hresult'
  rw [transcript_menu_eq, transcript_menu_eq, hzero, hother]
  refine ⟨?_, ?_, ?_⟩
  · rw [Transcript.result_after, hresult]
  · rw [Transcript.output_after, hout]
  · rw [Transcript.result_after, hresult']

end Clausal.CommandLine.Menu
