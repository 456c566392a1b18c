import Clausal.Proofs.CommandLine.Dialogue
import Clausal.Proofs.Text.Utf8

/-!
# Files without a formula

A file that cannot be opened and a text that is malformed are reported to the user, with the reason,
and the program goes on or ends with the number for a question without an answer. A path with a zero
character, and bytes that are the encoding of no text, break it off instead. Main statement: which of
these comes of a path, for every content of the file, and what each command and each round of the
menu makes of it (`loading_contained`).
-/

namespace Clausal.CommandLine

open Text.Utf8 (encode)

/-! ### What comes of a path -/

section Loading

variable {fetch : Path → Content} {path : String} {answer : Except Error Loaded}

/-- What comes of loading from a path: the formula of the text, a reason why there is none, or an
error that breaks the program off. -/
inductive Comes (fetch : Path → Content) (path : String) : Except Error Loaded → Prop where
  | formula {cs W} :
    '\x00' ∉ path.toList →
    fetch (.ofString path) = .ok (encode cs) →
    (Format.parse (Text.unifyNewlines cs)).result = .ok W →
    Comes fetch path (.ok (.formula W))
  | closed {fault} :
    '\x00' ∉ path.toList →
    fetch (.ofString path) = .error fault →
    Comes fetch path (.ok (.unreadable (fault.message (.ofString path))))
  | malformed {cs line wording} :
    '\x00' ∉ path.toList →
    fetch (.ofString path) = .ok (encode cs) →
    Format.Malformed (Text.unifyNewlines cs) line wording →
    Comes fetch path (.ok (.unreadable ("line " ++ Nat.repr line ++ ": " ++ wording)))
  | zero :
    '\x00' ∈ path.toList →
    Comes fetch path (.error .zeroInPath)
  | noText {bytes fault} :
    '\x00' ∉ path.toList →
    fetch (.ofString path) = .ok bytes →
    (∀ cs, bytes ≠ encode cs) →
    Text.Utf8.decode bytes = .error fault →
    Comes fetch path (.error (.undecodable fault))

/-- Something comes of every path, whatever the file holds. -/
lemma exists_comes (fetch : Path → Content) (path : String) :
    ∃ answer, Comes fetch path answer := by
  by_cases hzero : '\x00' ∈ path.toList
  · exact ⟨_, .zero hzero⟩
  cases hfetch : fetch (.ofString path) with
  | error fault => exact ⟨_, .closed hzero hfetch⟩
  | ok bytes =>
    cases hdecode : Text.Utf8.decode bytes with
    | error fault =>
      refine ⟨_, .noText hzero hfetch (fun cs hcs => ?_) hdecode⟩
      cases hdecode.symm.trans (Text.Utf8.decode_eq_ok_iff.mpr hcs)
    | ok cs =>
      obtain rfl := Text.Utf8.decode_eq_ok_iff.mp hdecode
      by_cases hwrites : ∃ n, Format.WritesFormula n (Text.unifyNewlines cs)
      · obtain ⟨W, hparse⟩ := Format.exists_parse_eq_ok_iff.mpr hwrites
        exact ⟨_, .formula hzero hfetch hparse⟩
      · obtain ⟨line, wording, hbad⟩ := Format.exists_malformed hwrites
        exact ⟨_, .malformed hzero hfetch hbad⟩

/-- Nothing but a formula is accompanied by events. -/
lemma Comes.loadAt_eq (h : Comes fetch path answer) :
    (Id.run (loadAt fetch path)).result = answer ∧
      ((∀ W, answer ≠ .ok (.formula W)) → Id.run (loadAt fetch path) = .silent answer) := by
  cases h with
  | formula hzero hfetch hparse =>
    rw [loadAt_eq_load hzero, hfetch, load, Text.Utf8.decode_eq_ok_iff.mpr rfl]
    simp only [hparse]
    exact ⟨trivial, fun hne => absurd rfl (hne _)⟩
  | closed hzero hfetch =>
    rw [loadAt_eq_load hzero, hfetch]
    exact ⟨rfl, fun _ => rfl⟩
  | malformed hzero hfetch hbad =>
    obtain ⟨fault, hparse, rfl⟩ := hbad.parse_eq
    rw [loadAt_eq_load hzero, hfetch, load, Text.Utf8.decode_eq_ok_iff.mpr rfl]
    simp only [hparse]
    exact ⟨rfl, fun _ => rfl⟩
  | zero hzero =>
    rw [loadAt_eq_of_zero hzero]
    exact ⟨rfl, fun _ => rfl⟩
  | noText hzero hfetch _ hdecode =>
    rw [loadAt_eq_load hzero, hfetch, load, hdecode]
    exact ⟨rfl, fun _ => rfl⟩

/-- What is loaded from a path is exactly what comes of it. -/
lemma result_loadAt_eq_iff :
    (Id.run (loadAt fetch path)).result = answer ↔ Comes fetch path answer := by
  constructor
  · intro h
    obtain ⟨answer', hcomes⟩ := exists_comes fetch path
    rwa [← h, hcomes.loadAt_eq.1]
  · exact fun h => h.loadAt_eq.1

/-- A formula that is loaded was built of clauses. -/
lemma Comes.built {W : Workspace} (h : Comes fetch path (.ok (.formula W))) : ∃ n, W.Built n := by
  cases h with
  | formula _ _ hparse =>
    obtain ⟨n, hn⟩ := Format.exists_parse_eq_ok_iff.mp ⟨W, hparse⟩
    obtain ⟨W', hparse', hbuild, -⟩ := hn.parse_eq
    rw [hparse'] at hparse
    cases hparse
    exact ⟨n, Workspace.built_of_ofClauses hbuild⟩

end Loading

/-! ### What is made of it -/

section Uses

variable {fetch : Path → Content} {path reason : String} {e : Error} {α : Type} {a : α}
  {use : Workspace → Transcript α}

/-- What is written about a file without a formula. -/
def unreadableLine (path reason : String) : String :=
  "Cannot read formula from " ++ path ++ ": " ++ reason ++ "\n"

/-- A file without a formula is reported and a question about it is not answered. -/
lemma Comes.withFormula_unreadable (h : Comes fetch path (.ok (.unreadable reason))) :
    withFormula path (Id.run (loadAt fetch path)) a use =
      ⟨unreadableLine path reason, [.unreadable path reason], .ok a⟩ := by
  rw [h.loadAt_eq.2 nofun]
  rfl

/-- An error breaks off before anything is written, and the formula is not asked for. -/
lemma Comes.withFormula_error (h : Comes fetch path (.error e)) :
    withFormula path (Id.run (loadAt fetch path)) a use = ⟨"", [], .error e⟩ := by
  rw [h.loadAt_eq.2 nofun]
  rfl

/-- Where a formula is loaded, the answer is that of its use. -/
lemma Comes.result_withFormula {W : Workspace} (h : Comes fetch path (.ok (.formula W))) :
    (withFormula path (Id.run (loadAt fetch path)) a use).result = (use W).result := by
  unfold withFormula
  rw [h.loadAt_eq.1]
  rfl

/-- The path of the formula that a command is about. The menu asks for paths. -/
def Command.path? : Command → Option String
  | .check path _ => some path
  | .classify _ path => some path
  | .solve path _ => some path
  | .menu => none

/-- Every command on a path loads what is there and does nothing else with the files. -/
lemma exists_transcript_eq {c : Command} (h : c.path? = some path) (input : String) :
    ∃ use, c.transcript fetch input =
      withFormula path (Id.run (loadAt fetch path)) exitError use := by
  cases c with
  | check =>
    cases h
    exact ⟨_, rfl⟩
  | classify =>
    cases h
    exact ⟨_, rfl⟩
  | solve file algorithm =>
    cases h
    cases algorithm with
    | none => exact ⟨_, rfl⟩
    | some algorithm => exact ⟨_, rfl⟩
  | menu => cases h

end Uses

namespace Menu

variable {fetch : Path → Content} {selection path reason : String} {e : Error} {W : Workspace}

/-- After a file without a formula comes the next round. -/
lemma lead_unreadable (h : Comes fetch path (.ok (.unreadable reason)))
    (hselection : selection ∈ ["1", "2", "3", "4", "5", "6"]) (rest : List String) :
    lead fetch (selection :: path :: rest) =
      (lead fetch rest).after (asked ++ unreadableLine path reason) [.unreadable path reason] := by
  obtain ⟨operation, hoperation, hne⟩ := exists_operation_iff.mpr hselection
  exact lead_path hoperation hne h.withFormula_unreadable

/-- A path from which an error comes breaks the menu off after it was asked for. -/
lemma lead_error (h : Comes fetch path (.error e))
    (hselection : selection ∈ ["1", "2", "3", "4", "5", "6"]) (rest : List String) :
    lead fetch (selection :: path :: rest) = ⟨asked, [], .error e⟩ := by
  obtain ⟨operation, hoperation, hne⟩ := exists_operation_iff.mpr hselection
  rw [lead_path hoperation hne h.withFormula_error, String.append_empty]

/-- No operation on a formula that was built of clauses breaks the menu off. -/
lemma exists_perform_eq_ok {n : Nat} (h : W.Built n) (words : List String)
    (operation : Selection) : ∃ used, (perform W words operation).result = .ok used := by
  cases operation with
  | check =>
    have hlen : (words.take n).length = n ∨ (words.take n).length < n ∧ words.drop n = [] := by
      rw [List.length_take, List.drop_eq_nil_iff]
      omega
    have hcheck := (perform_check h hlen).2
    rw [List.take_append_drop] at hcheck
    exact ⟨n, hcheck⟩
  | classify m => exact ⟨0, perform_classify W words m⟩
  | solve m => exact ⟨0, perform_solve h words m⟩
  | close => exact ⟨0, rfl⟩

/-- What a round comes to: the menu is left, it goes on with words that are left, or an error breaks
it off. -/
lemma lead_step (fetch : Path → Content) (selection : String) (rest : List String) :
    lead fetch (selection :: rest) = .say (listing ++ selectionPrompt ++ farewell) exitOk ∨
    (∃ left text events, left <:+ rest ∧
      lead fetch (selection :: rest) = (lead fetch left).after text events) ∨
    ∃ path ∈ rest, ∃ e, Comes fetch path (.error e) ∧
      (lead fetch (selection :: rest)).result = .error e := by
  cases hoperation : Selection.ofWord? selection with
  | none => exact .inr (.inl ⟨rest, _, _, List.suffix_refl rest, lead_unknown hoperation⟩)
  | some operation =>
    by_cases hclose : operation = .close
    · rw [hclose] at hoperation
      rw [ofWord?_eq_close_iff.mp hoperation]
      exact .inl lead_close
    cases rest with
    | nil => exact .inr (.inl ⟨[], _, _, List.suffix_refl [], lead_noPath hoperation hclose⟩)
    | cons path rest =>
      have hselection := exists_operation_iff.mp ⟨operation, hoperation, hclose⟩
      right
      obtain ⟨answer, hcomes⟩ := exists_comes fetch path
      cases answer with
      | error e =>
        right
        exact ⟨path, List.mem_cons_self, e, hcomes, by rw [lead_error hcomes hselection]⟩
      | ok loaded =>
        left
        cases loaded with
        | unreadable reason =>
          exact ⟨rest, _, _, List.suffix_cons path rest, lead_unreadable hcomes hselection rest⟩
        | formula W =>
          obtain ⟨n, hbuilt⟩ := hcomes.built
          obtain ⟨used, hused⟩ := exists_perform_eq_ok hbuilt rest operation
          obtain ⟨t, ht⟩ : ∃ t, (withFormula path (Id.run (loadAt fetch path)) 0
            fun W => perform W rest operation) = t := ⟨_, rfl⟩
          have hresult : t.result = .ok used := by
            rw [← ht, hcomes.result_withFormula, hused]
          refine ⟨rest.drop used, asked ++ t.output, t.events,
            (List.drop_suffix used rest).trans (List.suffix_cons path rest), ?_⟩
          rw [lead_path hoperation hclose ht, hresult]

/-- The menu goes on until it is left, unless a word is a path from which an error comes. -/
lemma lead_ends (fetch : Path → Content) (words : List String) :
    ((lead fetch words).result = .ok exitOk ∧
      ∃ before, (lead fetch words).output = before ++ farewell) ∨
    ∃ path ∈ words, ∃ e, Comes fetch path (.error e) ∧ (lead fetch words).result = .error e := by
  induction hlen : words.length using Nat.strongRecOn generalizing words with
  | ind k ih =>
    cases words with
    | nil =>
      rw [lead_nil]
      exact .inl ⟨rfl, _, rfl⟩
    | cons selection rest =>
      rcases lead_step fetch selection rest with hend | ⟨left, text, events, hleft, hlead⟩ |
        ⟨path, hpath, e, hcomes, hresult⟩
      · rw [hend]
        exact .inl ⟨rfl, _, rfl⟩
      · have hlt : left.length < k := by
          have hle := hleft.length_le
          rw [List.length_cons] at hlen
          omega
        rw [hlead]
        rcases ih left.length hlt left rfl with ⟨hresult, before, hout⟩ |
          ⟨path, hpath, e, hcomes, hresult⟩
        · refine .inl ⟨hresult, text ++ before, ?_⟩
          rw [Transcript.output_after, hout, String.append_assoc]
        · exact .inr ⟨path, List.mem_cons_of_mem _ (hleft.mem hpath), e, hcomes, hresult⟩
      · exact .inr ⟨path, List.mem_cons_of_mem _ hpath, e, hcomes, hresult⟩

end Menu

/-- From every path comes a formula, a reason why there is none, or an error. With a reason, each
command on the path writes one line and ends with the number for a question without an answer, and a
round of the menu that asks for the path writes the same line and goes on with the words behind it.
With an error, which only a path with a zero character and bytes that encode no text give, they break
off; the menu is left as usual if no word of its input is such a path. -/
theorem loading_contained (fetch : Path → Content) (path : String) :
    (∀ answer, (Id.run (loadAt fetch path)).result = answer ↔ Comes fetch path answer) ∧
    (∀ reason, Comes fetch path (.ok (.unreadable reason)) →
      (∀ c : Command, c.path? = some path → ∀ input, c.transcript fetch input =
        ⟨unreadableLine path reason, [.unreadable path reason], .ok exitError⟩) ∧
      ∀ selection ∈ ["1", "2", "3", "4", "5", "6"], ∀ rest,
        Menu.lead fetch (selection :: path :: rest) = (Menu.lead fetch rest).after
          (Menu.asked ++ unreadableLine path reason) [.unreadable path reason]) ∧
    (∀ e, Comes fetch path (.error e) →
      (∀ c : Command, c.path? = some path → ∀ input,
        c.transcript fetch input = ⟨"", [], .error e⟩) ∧
      ∀ selection ∈ ["1", "2", "3", "4", "5", "6"], ∀ rest,
        Menu.lead fetch (selection :: path :: rest) = ⟨Menu.asked, [], .error e⟩) ∧
    ∀ input, ((Command.menu.transcript fetch input).result = .ok exitOk ∧
        ∃ before, (Command.menu.transcript fetch input).output = before ++ Menu.farewell) ∨
      ∃ word ∈ Text.words input, ∃ e, Comes fetch word (.error e) ∧
        (Command.menu.transcript fetch input).result = .error e := by
  refine ⟨fun answer => result_loadAt_eq_iff, ?_, ?_, ?_⟩
  · intro reason hcomes
    refine ⟨fun c hc input => ?_, fun selection => Menu.lead_unreadable hcomes⟩
    obtain ⟨use, htranscript⟩ := exists_transcript_eq hc input
    rw [htranscript, hcomes.withFormula_unreadable]
  · intro e hcomes
    refine ⟨fun c hc input => ?_, fun selection => Menu.lead_error hcomes⟩
    obtain ⟨use, htranscript⟩ := exists_transcript_eq hc input
    rw [htranscript, hcomes.withFormula_error]
  · intro input
    rw [Menu.transcript_menu_eq, Transcript.result_after, Transcript.output_after]
    rcases Menu.lead_ends fetch (Text.words input) with ⟨hresult, before, hout⟩ | hbroken
    · exact .inl ⟨hresult, Menu.greeting ++ before, by rw [hout, String.append_assoc]⟩
    · exact .inr hbroken

/-- Every file is empty. -/
def emptyFile (_ : Path) : Content := .ok []

/-- An empty file is reported, and the menu goes on with the word behind its path. -/
theorem loading_contained_emptyFile :
    Comes emptyFile "f" (.ok (.unreadable "line 1: missing number of variables")) ∧
    (Command.check "f" ["1"]).transcript emptyFile "" =
      ⟨"Cannot read formula from f: line 1: missing number of variables\n",
        [.unreadable "f" "line 1: missing number of variables"], .ok exitError⟩ ∧
    (Menu.lead emptyFile ["2", "f", "7"]).result = .ok exitOk := by
  have hcomes : Comes emptyFile "f" _ :=
    @Comes.malformed emptyFile "f" [] 1 "missing number of variables" (by decide) rfl
      (.size .missing)
  have hreason : "line " ++ Nat.repr 1 ++ ": " ++ "missing number of variables" =
      "line 1: missing number of variables" := by decide
  rw [hreason] at hcomes
  have hline : unreadableLine "f" "line 1: missing number of variables" =
      "Cannot read formula from f: line 1: missing number of variables\n" := by decide
  obtain ⟨-, hunreadable, -, -⟩ := loading_contained emptyFile "f"
  obtain ⟨hcommands, hrounds⟩ := hunreadable _ hcomes
  refine ⟨hcomes, ?_, ?_⟩
  · rw [hcommands (.check "f" ["1"]) rfl "", hline]
  · rw [hrounds "2" (by decide) ["7"], Transcript.result_after, Menu.lead_close]
    rfl

/-- Every file consists of one byte, with which no character starts. -/
def strayByte (_ : Path) : Content := .ok [0xFF]

/-- At a file that is no text each command breaks off without a line, and so does the menu, although
there are more words. -/
theorem loading_breaks_off_strayByte :
    let fault : Text.Utf8.Fault := ⟨0, [0xFF], .start⟩
    (∀ cs, [0xFF] ≠ encode cs) ∧
    (∀ c ∈ [Command.check "f" ["1"], .classify .horn "f", .solve "f" (some .auto)],
      c.transcript strayByte "" = ⟨"", [], .error (.undecodable fault)⟩) ∧
    (Command.menu.transcript strayByte "2\nf\n7\n").result = .error (.undecodable fault) := by
  intro fault
  have hdecode : Text.Utf8.decode [0xFF] = .error fault := rfl
  have hbytes : ∀ cs, [0xFF] ≠ encode cs := by
    intro cs hcs
    cases hdecode.symm.trans (Text.Utf8.decode_eq_ok_iff.mpr hcs)
  have hcomes : Comes strayByte "f" (.error (.undecodable fault)) :=
    .noText (by decide) rfl hbytes hdecode
  refine ⟨hbytes, ?_, ?_⟩
  · intro c hc
    have hpath : c.path? = some "f" := by
      simp only [List.mem_cons, List.not_mem_nil, or_false] at hc
      rcases hc with rfl | rfl | rfl <;> rfl
    obtain ⟨use, htranscript⟩ := exists_transcript_eq hpath ""
    rw [htranscript, hcomes.withFormula_error]
  · have hwords : Text.words "2\nf\n7\n" = ["2", "f", "7"] := by decide
    rw [Menu.transcript_menu_eq, hwords, Menu.lead_error hcomes (by decide)]
    rfl

end Clausal.CommandLine
