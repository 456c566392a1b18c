import Clausal.Proofs.Construction
import Clausal.Solver.Horn

/-!
# Striking out a literal

What striking the negation of a variable out of the clauses of a list does to a formula. A reference
may be listed several times. Main statement: the literal is gone from the listed clauses, and the
variables of the facts among them are on the queue, or there is a clause without any other literal,
and only the clauses before it are struck (`strike_spec`).
-/

namespace Clausal

/-- Removing a literal that the clause does not have changes nothing. -/
lemma Clause.erase_eq_self {c : Clause} {l : Literal} (h : l ∉ c) : c.erase l = c :=
  Clause.ext_literals (List.erase_of_not_mem h)

/-- A clause with a literal has no other one exactly if its size is one. -/
lemma Clause.size_eq_one_iff {c : Clause} {l : Literal} (h : l ∈ c) :
    c.size = 1 ↔ c.literals = [l] := by
  rw [← Clause.mem_literals] at h
  constructor
  · intro hs
    obtain ⟨m, hm⟩ := List.length_eq_one_iff.mp hs
    rw [hm, List.mem_singleton] at h
    rw [hm, h]
  · intro hl
    simp [Clause.size, hl]

/-- A clause is not left empty if the literal removed is not its only one. -/
lemma Clause.erase_ne_nil {c : Clause} {l : Literal} (hne : c.literals ≠ [])
    (hs : l ∈ c → c.size ≠ 1) : (c.erase l).literals ≠ [] := by
  intro hnil
  by_cases h : l ∈ c
  · apply hs h
    have hlen := List.length_erase_of_mem (Clause.mem_literals.mpr h)
    have hpos := List.length_pos_of_mem (Clause.mem_literals.mpr h)
    simp only [Clause.erase] at hnil
    rw [hnil, List.length_nil] at hlen
    show c.literals.length = 1
    omega
  · rw [Clause.erase_eq_self h] at hnil
    exact hne hnil

namespace Solver.Horn

/-- Puts the variable of a fact on the queue, unless it is `v`. -/
def note (v : Variable) (c : Clause) (F : Formula) : Formula :=
  match c.fact? with
  | some w => if w = v then F else F.enqueue w
  | none => F

/-- The formula after the negation of `v` was struck out of one clause. -/
def strikeOne (v : Variable) (W : Workspace) (r : ClauseRef) : Workspace :=
  let c := (W.arena.get r).erase ⟨v, true⟩
  ⟨W.arena.modify r fun _ => c, note v c W.formula⟩

/-- Striking out goes on after each clause that has the literal and another one. -/
lemma strike_cons (v : Variable) (W : Workspace) (removed : Nat) (r : ClauseRef)
    (rest : List ClauseRef) :
    strike v W removed (r :: rest) =
      if ⟨v, true⟩ ∉ W.arena.get r then strike v W removed rest
      else if (W.arena.get r).size = 1 then (W, .error (.unsatisfiable .horn))
      else strike v (strikeOne v W r) (removed + 1) rest := by
  simp only [strike, strikeOne, note]
  split
  · rfl
  split
  · rfl
  cases ((W.arena.get r).erase ⟨v, true⟩).fact? with
  | none => rfl
  | some w =>
    by_cases hw : w = v
    · simp only [hw, ↓reduceIte]
    · simp only [hw, ↓reduceIte]

/-- Noting a fact does not change the number of variables. -/
@[simp]
lemma note_numVariables (v : Variable) (c : Clause) (F : Formula) :
    (note v c F).numVariables = F.numVariables := by
  unfold note
  split
  · split
    · rfl
    · exact Formula.enqueue_numVariables F _
  · rfl

/-- Noting a fact does not change which clauses a formula has. -/
@[simp]
lemma note_refs (v : Variable) (c : Clause) (F : Formula) : (note v c F).refs = F.refs := by
  unfold note
  split
  · split
    · rfl
    · exact Formula.enqueue_refs F _
  · rfl

/-- Noting a fact does not change the register. -/
@[simp]
lemma note_register (v : Variable) (c : Clause) (F : Formula) :
    (note v c F).register = F.register := by
  unfold note
  split
  · split
    · rfl
    · exact Formula.enqueue_register F _
  · rfl

/-- The variable of a fact comes to the queue, unless it is `v`. -/
lemma mem_queue_note {v w : Variable} {c : Clause} {F : Formula} :
    w ∈ (note v c F).queue ↔ w ∈ F.queue ∨ (w ≠ v ∧ c.fact? = some w) := by
  unfold note
  split
  · next u hu =>
    rw [hu, Option.some_inj]
    split
    · next huv =>
      constructor
      · exact Or.inl
      · rintro (hw | ⟨hw, rfl⟩)
        · exact hw
        · exact absurd huv hw
    · next huv =>
      rw [Formula.mem_queue_enqueue]
      constructor
      · rintro (hw | rfl)
        · exact .inl hw
        · exact .inr ⟨huv, rfl⟩
      · rintro (hw | ⟨-, rfl⟩)
        · exact .inl hw
        · exact .inr rfl
  · next hn => simp [hn]

/-- Noting a fact puts no variable on the queue that waits there. -/
lemma nodup_queue_note {v : Variable} {c : Clause} {F : Formula} (h : F.queue.Nodup) :
    (note v c F).queue.Nodup := by
  unfold note
  split
  · split
    · exact h
    · exact Formula.nodup_queue_enqueue h
  · exact h

/-- What it means that the negation of `v` was struck out of the listed clauses, none of which was
left empty. -/
structure Struck (v : Variable) (rs : List ClauseRef) (W W' : Workspace) : Prop where
  numVariables_eq : W'.formula.numVariables = W.formula.numVariables
  refs_eq : W'.formula.refs = W.formula.refs
  register_eq : W'.formula.register = W.formula.register
  size_eq : W'.arena.slots.size = W.arena.slots.size
  get_eq : ∀ s, W'.arena.get s =
    if s ∈ rs then (W.arena.get s).erase ⟨v, true⟩ else W.arena.get s
  size_ne_one : ∀ s ∈ rs, ⟨v, true⟩ ∈ W.arena.get s → (W.arena.get s).size ≠ 1
  mem_queue_iff : ∀ w, w ∈ W'.formula.queue ↔ w ∈ W.formula.queue ∨
    (w ≠ v ∧ ∃ s ∈ rs, ⟨v, true⟩ ∈ W.arena.get s ∧
      ((W.arena.get s).erase ⟨v, true⟩).fact? = some w)
  nodup_queue : W.formula.queue.Nodup → W'.formula.queue.Nodup

/-- Striking out of no clauses changes nothing. -/
lemma Struck.nil (v : Variable) (W : Workspace) : Struck v [] W W where
  numVariables_eq := rfl
  refs_eq := rfl
  register_eq := rfl
  size_eq := rfl
  get_eq := by simp
  size_ne_one := by simp
  mem_queue_iff := by simp
  nodup_queue := id

/-- A clause without the literal is left as it is. -/
lemma Struck.skip {v : Variable} {r : ClauseRef} {rs : List ClauseRef} {W W' : Workspace}
    (h : Struck v rs W W') (hr : ⟨v, true⟩ ∉ W.arena.get r) : Struck v (r :: rs) W W' where
  numVariables_eq := h.numVariables_eq
  refs_eq := h.refs_eq
  register_eq := h.register_eq
  size_eq := h.size_eq
  get_eq := by
    intro s
    by_cases hs : s = r
    · subst hs
      rw [h.get_eq, Clause.erase_eq_self hr]
      simp
    · simp [h.get_eq, hs]
  size_ne_one := by
    intro s hs hv
    rcases List.mem_cons.mp hs with rfl | hs
    · exact absurd hv hr
    · exact h.size_ne_one s hs hv
  mem_queue_iff := by
    intro w
    simp [h.mem_queue_iff, hr]
  nodup_queue := h.nodup_queue

/-- The clause struck loses the literal, and the others stay. -/
lemma get_strikeOne {v : Variable} {W : Workspace} {r s : ClauseRef}
    (hr : r < W.arena.slots.size) : (strikeOne v W r).arena.get s =
      if s = r then (W.arena.get s).erase ⟨v, true⟩ else W.arena.get s := by
  simp only [strikeOne, Arena.get_modify hr]
  split
  · next hs => rw [hs]
  · rfl

/-- The literal remains only in the clauses that were not struck. -/
lemma mem_get_strikeOne {v : Variable} {W : Workspace} {r s : ClauseRef}
    (hr : r < W.arena.slots.size) : ⟨v, true⟩ ∈ (strikeOne v W r).arena.get s ↔
      s ≠ r ∧ ⟨v, true⟩ ∈ W.arena.get s := by
  rw [get_strikeOne hr]
  split
  · next hs => simp [hs]
  · next hs => simp [hs]

/-- A clause that has the literal and another one loses it before the others are struck. -/
lemma Struck.cons {v : Variable} {r : ClauseRef} {rs : List ClauseRef} {W W' : Workspace}
    (h : Struck v rs (strikeOne v W r) W') (hlt : r < W.arena.slots.size)
    (hr : ⟨v, true⟩ ∈ W.arena.get r) (hs : (W.arena.get r).size ≠ 1) :
    Struck v (r :: rs) W W' where
  numVariables_eq := h.numVariables_eq.trans (note_numVariables _ _ _)
  refs_eq := h.refs_eq.trans (note_refs _ _ _)
  register_eq := h.register_eq.trans (note_register _ _ _)
  size_eq := h.size_eq.trans (by simp [strikeOne, Arena.modify])
  get_eq := by
    intro s
    rw [h.get_eq, get_strikeOne hlt]
    by_cases hsr : s = r
    · -- a second striking of the same clause finds the literal gone
      have hgone : ⟨v, true⟩ ∉ (W.arena.get s).erase ⟨v, true⟩ := by simp
      simp [hsr, Clause.erase_eq_self (hsr ▸ hgone)]
    · simp [hsr]
  size_ne_one := by
    intro s hs' hv
    by_cases hsr : s = r
    · exact hsr ▸ hs
    · have hrest : s ∈ rs := by simpa [hsr] using hs'
      have hne := h.size_ne_one s hrest ((mem_get_strikeOne hlt).mpr ⟨hsr, hv⟩)
      rwa [get_strikeOne hlt, if_neg hsr] at hne
  mem_queue_iff := by
    intro w
    have hnoted : w ∈ (strikeOne v W r).formula.queue ↔ w ∈ W.formula.queue ∨
        (w ≠ v ∧ ((W.arena.get r).erase ⟨v, true⟩).fact? = some w) := mem_queue_note
    rw [h.mem_queue_iff, hnoted]
    constructor
    · rintro ((hw | ⟨hw, hf⟩) | ⟨hw, s, hs', hv, hf⟩)
      · exact .inl hw
      · exact .inr ⟨hw, r, List.mem_cons_self, hr, hf⟩
      · obtain ⟨hsr, hv⟩ := (mem_get_strikeOne hlt).mp hv
        rw [get_strikeOne hlt, if_neg hsr] at hf
        exact .inr ⟨hw, s, List.mem_cons_of_mem _ hs', hv, hf⟩
    · rintro (hw | ⟨hw, s, hs', hv, hf⟩)
      · exact .inl (.inl hw)
      by_cases hsr : s = r
      · exact .inl (.inr ⟨hw, hsr ▸ hf⟩)
      · have hrest : s ∈ rs := by simpa [hsr] using hs'
        refine .inr ⟨hw, s, hrest, (mem_get_strikeOne hlt).mpr ⟨hsr, hv⟩, ?_⟩
        rwa [get_strikeOne hlt, if_neg hsr]
  nodup_queue := fun hq => h.nodup_queue (nodup_queue_note hq)

/-- Striking the negation of `v` out of the listed clauses succeeds, or it comes to a clause that has
no other literal. -/
lemma strike_spec {v : Variable} {rs : List ClauseRef} {W : Workspace} {removed : Nat}
    (hlt : ∀ r ∈ rs, r < W.arena.slots.size) :
    (∃ W' k, strike v W removed rs = (W', .ok k) ∧ Struck v rs W W') ∨
      ∃ W' rs₁ r rs₂, strike v W removed rs = (W', .error (.unsatisfiable .horn)) ∧
        rs = rs₁ ++ r :: rs₂ ∧ Struck v rs₁ W W' ∧ (W.arena.get r).literals = [⟨v, true⟩] := by
  induction rs generalizing W removed with
  | nil => exact .inl ⟨W, removed, rfl, .nil v W⟩
  | cons r rest ih =>
    obtain ⟨hr, hrest⟩ := List.forall_mem_cons.mp hlt
    rw [strike_cons]
    by_cases hv : ⟨v, true⟩ ∈ W.arena.get r
    · rw [if_neg (not_not_intro hv)]
      by_cases hs : (W.arena.get r).size = 1
      · rw [if_pos hs]
        exact .inr ⟨W, [], r, rest, rfl, rfl, .nil v W, (Clause.size_eq_one_iff hv).mp hs⟩
      · rw [if_neg hs]
        have hrest' : ∀ s ∈ rest, s < (strikeOne v W r).arena.slots.size := by
          simpa [strikeOne, Arena.modify] using hrest
        rcases ih hrest' with ⟨W', k, hok, h⟩ | ⟨W', rs₁, s, rs₂, herr, rfl, h, hlits⟩
        · exact .inl ⟨W', k, hok, h.cons hr hv hs⟩
        · have hmem : ⟨v, true⟩ ∈ (strikeOne v W r).arena.get s := by
            rw [← Clause.mem_literals, hlits]
            exact List.mem_singleton.mpr rfl
          -- the clause that fails was not struck before, so it is the one that was there
          obtain ⟨hsr, -⟩ := (mem_get_strikeOne hr).mp hmem
          rw [get_strikeOne hr, if_neg hsr] at hlits
          exact .inr ⟨W', r :: rs₁, s, rs₂, herr, rfl, h.cons hr hv hs, hlits⟩
    · rw [if_pos hv]
      rcases ih hrest with ⟨W', k, hok, h⟩ | ⟨W', rs₁, s, rs₂, herr, rfl, h, hlits⟩
      · exact .inl ⟨W', k, hok, h.skip hv⟩
      · exact .inr ⟨W', r :: rs₁, s, rs₂, herr, rfl, h.skip hv, hlits⟩

end Solver.Horn

end Clausal
