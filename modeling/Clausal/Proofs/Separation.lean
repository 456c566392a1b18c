import Clausal.Proofs.Dispatch

/-!
# Formulas without a clause in common

What a caller does with one formula does not show in another one, as long as the two have no clause in
common. Which clauses are foreign to the caller is a parameter: the caller does not add them to the
formula and does not change them. Main statements: whatever the caller does (`Workspace.Step`), the
foreign clauses stay as they are, and the formula refers to none of them
(`Workspace.Separate.steps`); two formulas that begin without a clause in common never have one, if
none is handed a clause of the other (`Pair.separate_of_steps`).
-/

namespace Clausal

/-- Changing a clause in place leaves the others as they were. -/
lemma Arena.get_modify_of_ne {A : Arena} {r s : ClauseRef} (f : Clause → Clause) (h : r ≠ s) :
    (A.modify r f).get s = A.get s := by
  simp [modify, get, Array.getElem?_modify, h]

/-- Further clauses behind those of an arena leave these as they were. -/
lemma Arena.get_of_slots_eq {A A' : Arena} {cs : Array Clause} {r : ClauseRef}
    (h : A'.slots = A.slots ++ cs) (hr : r < A.slots.size) : A'.get r = A.get r := by
  rw [get, get, h, Array.getElem?_append_left hr]

/-- Only the Horn method changes anything, and it takes literals away. -/
lemma Solver.trimmed_solve (W : Workspace) (name : String) :
    Horn.Trimmed W (solve W name).1 := by
  by_cases hd : Destructive W.toCnf name
  · obtain ⟨rfl, hhorn⟩ := hd
    have hsuits : suits W.toCnf .horn = true := Cnf.isHorn_iff.mpr hhorn
    have hsolve : solve W "horn_sat" = Horn.solve W := if_pos hsuits
    rw [hsolve]
    exact Horn.trimmed_solve W
  · rw [solve_fst hd]
    exact .refl W

namespace Formula

/-- A formula refers to its clauses and to those that are in its register. -/
def RefersTo (F : Formula) (r : ClauseRef) : Prop := r ∈ F.refs ∨ ∃ v, (v, r) ∈ F.register

/-- What a formula refers to depends on its clauses and its register only. -/
lemma RefersTo.of_eq {F G : Formula} {r : ClauseRef} (h : G.RefersTo r) (hrefs : G.refs = F.refs)
    (hregister : G.register = F.register) : F.RefersTo r := by
  rwa [RefersTo, hrefs, hregister] at h

/-- Registering a clause, also if it breaks off, leads to no clause but this one. -/
lemma refersTo_of_registerAll {F : Formula} {r s : ClauseRef} {ls : List Literal}
    (h : (F.registerAll r ls).1.RefersTo s) : F.RefersTo s ∨ s = r := by
  induction ls generalizing F with
  | nil => exact .inl h
  | cons l rest ih =>
    simp only [registerAll] at h
    split at h
    · exact .inl h
    split at h
    · rcases ih h with (hs | ⟨v, hv⟩) | hs
      · exact .inl (.inl hs)
      · rcases List.mem_append.mp hv with hv | hv
        · exact .inl (.inr ⟨v, hv⟩)
        · rw [List.mem_singleton, Prod.mk.injEq] at hv
          exact .inr hv.2
      · exact .inr hs
    · exact ih h

/-- Adding a clause, also if it is refused, leads to no clause but this one. -/
lemma refersTo_of_attach {A : Arena} {F : Formula} {r s : ClauseRef}
    (h : (F.attach A r).1.RefersTo s) : F.RefersTo s ∨ s = r := by
  have hregister : (F.registerAll r (A.get r).literals).1.RefersTo s → F.RefersTo s ∨ s = r :=
    refersTo_of_registerAll
  unfold attach at h
  split at h
  · next G hG =>
    rw [hG] at hregister
    exact hregister h
  · next G hG =>
    rw [hG] at hregister
    have hadded : ({ G with refs := G.refs ++ [r] } : Formula).RefersTo s := by
      split at h
      · exact h.of_eq (enqueue_refs _ _) (enqueue_register _ _)
      · exact h
    rcases hadded with hs | hs
    · rcases List.mem_append.mp hs with hs | hs
      · exact hregister (.inl hs)
      · exact .inr (List.mem_singleton.mp hs)
    · exact hregister (.inr hs)

end Formula

namespace Workspace

/-! ### Calls -/

/-- Copying puts new clauses behind those of the arena. -/
lemma slots_copy {W C : Workspace} (h : W.copy = .ok C) :
    C.arena.slots = W.arena.slots ++ (W.formula.clauses W.arena).toArray := by
  simp only [copy, bind, Except.bind] at h
  split at h
  · cases h
  · next C' hC' =>
    cases h
    exact (placed_of_addAll hC').1

/-- One call of a caller to whom some clauses are foreign: the caller makes a clause, changes one in
place, adds one to the formula, which may refuse it, puts a variable on the queue or takes one off it,
copies the formula, solves it by the name of an algorithm, or has it propagate. -/
inductive Step (foreign : ClauseRef → Prop) : Workspace → Workspace → Prop where
  | make {A F} (c) :
    Step foreign ⟨A, F⟩ ⟨(A.alloc c).1, F⟩
  | change {A F r} (f) :
    ¬ foreign r →
    Step foreign ⟨A, F⟩ ⟨A.modify r f, F⟩
  | add {A F r} :
    ¬ foreign r →
    r < A.slots.size →
    Step foreign ⟨A, F⟩ ⟨A, (F.attach A r).1⟩
  | push {A F} (v) :
    Step foreign ⟨A, F⟩ ⟨A, F.enqueue v⟩
  | pop {A F F' v} :
    F.dequeue = .ok (v, F') →
    Step foreign ⟨A, F⟩ ⟨A, F'⟩
  | copy {A F C} :
    copy ⟨A, F⟩ = .ok C →
    Step foreign ⟨A, F⟩ ⟨C.arena, F⟩
  | solve {W} (name) :
    Step foreign W (Solver.solve W name).1
  | propagate {W} :
    Step foreign W (Solver.Horn.solve W).1

variable {foreign : ClauseRef → Prop} {W W' : Workspace}

/-- The formula refers to clauses of the arena, and to no foreign ones. -/
structure Separate (foreign : ClauseRef → Prop) (W : Workspace) : Prop where
  lt : ∀ r, W.formula.RefersTo r → r < W.arena.slots.size
  foreign_lt : ∀ r, foreign r → r < W.arena.slots.size
  disjoint : ∀ r, W.formula.RefersTo r → ¬ foreign r

/-- The foreign clauses are as they were, and what the formula has come to refer to is not foreign. -/
structure Spares (foreign : ClauseRef → Prop) (W W' : Workspace) : Prop where
  size_le : W.arena.slots.size ≤ W'.arena.slots.size
  get_eq : ∀ r, foreign r → W'.arena.get r = W.arena.get r
  refersTo : ∀ r, W'.formula.RefersTo r →
    W.formula.RefersTo r ∨ (r < W.arena.slots.size ∧ ¬ foreign r)

/-- Taking literals away from clauses that a formula refers to spares the foreign ones. -/
lemma Separate.spares_of_trimmed (h : W.Separate foreign) (ht : Solver.Horn.Trimmed W W') :
    Spares foreign W W' where
  size_le := Nat.le_of_eq ht.size_eq.symm
  get_eq := by
    intro r hr
    apply ht.get_eq
    intro v hv
    exact h.disjoint r (.inr ⟨v, hv⟩) hr
  refersTo := fun r hr => .inl (hr.of_eq ht.refs_eq ht.register_eq)

/-- Every call spares the foreign clauses. -/
lemma Step.spares (hs : Step foreign W W') (h : W.Separate foreign) : Spares foreign W W' := by
  cases hs with
  | @make A F c =>
    exact {
      size_le := by simp [Arena.alloc]
      get_eq := fun r hr => Arena.get_alloc_of_lt (h.foreign_lt r hr)
      refersTo := fun _ => .inl }
  | @change A F r f hr =>
    exact {
      size_le := by simp [Arena.modify]
      get_eq := by
        intro s hs
        apply Arena.get_modify_of_ne
        rintro rfl
        exact hr hs
      refersTo := fun _ => .inl }
  | @add A F r hr hlt =>
    exact {
      size_le := Nat.le_refl _
      get_eq := fun _ _ => rfl
      refersTo := by
        intro s hs
        rcases Formula.refersTo_of_attach hs with hs | rfl
        · exact .inl hs
        · exact .inr ⟨hlt, hr⟩ }
  | @push A F v =>
    exact {
      size_le := Nat.le_refl _
      get_eq := fun _ _ => rfl
      refersTo := fun r hr => .inl (hr.of_eq (F.enqueue_refs v) (F.enqueue_register v)) }
  | @pop A F F' v hd =>
    unfold Formula.dequeue at hd
    split at hd
    · cases hd
    · cases hd
      exact h.spares_of_trimmed (Solver.Horn.trimmed_withQueue ⟨A, F⟩ _)
  | @copy A F C hC =>
    have hslots := slots_copy hC
    exact {
      size_le := by simp [hslots]
      get_eq := fun r hr => Arena.get_of_slots_eq hslots (h.foreign_lt r hr)
      refersTo := fun _ => .inl }
  | solve name => exact h.spares_of_trimmed (Solver.trimmed_solve W name)
  | propagate => exact h.spares_of_trimmed (Solver.Horn.trimmed_solve W)

/-- A formula that spares the foreign clauses is still separate from them. -/
lemma Separate.of_spares (h : W.Separate foreign) (hs : Spares foreign W W') :
    W'.Separate foreign where
  lt := by
    intro r hr
    rcases hs.refersTo r hr with hr | ⟨hlt, -⟩
    · exact Nat.lt_of_lt_of_le (h.lt r hr) hs.size_le
    · exact Nat.lt_of_lt_of_le hlt hs.size_le
  foreign_lt := fun r hr => Nat.lt_of_lt_of_le (h.foreign_lt r hr) hs.size_le
  disjoint := by
    intro r hr
    rcases hs.refersTo r hr with hr | ⟨-, hn⟩
    · exact h.disjoint r hr
    · exact hn

/-- Whatever a caller does one after the other, the foreign clauses stay as they are, and the formula
refers to none of them. -/
lemma Separate.steps (h : W.Separate foreign) (hs : Relation.ReflTransGen (Step foreign) W W') :
    W'.Separate foreign ∧ ∀ r, foreign r → W'.arena.get r = W.arena.get r := by
  induction hs with
  | refl => exact ⟨h, fun _ _ => rfl⟩
  | tail _ hlast ih =>
    obtain ⟨hmid, heq⟩ := ih
    have hspares := hlast.spares hmid
    exact ⟨hmid.of_spares hspares, fun r hr => (hspares.get_eq r hr).trans (heq r hr)⟩

end Workspace

/-! ### Two formulas -/

/-- If the clauses of the second formula are foreign to the first one, then so are those of the first
formula to the second one. -/
lemma Workspace.Separate.symm {A : Arena} {F G : Formula}
    (h : Workspace.Separate G.RefersTo ⟨A, F⟩) : Workspace.Separate F.RefersTo ⟨A, G⟩ where
  lt := h.foreign_lt
  foreign_lt := h.lt
  disjoint := fun r hr hl => h.disjoint r hl hr

/-- Two formulas over one arena. -/
structure Pair where
  arena : Arena
  left : Formula
  right : Formula

namespace Pair

/-- One call on one of the formulas, where the clauses of the other one are foreign. -/
inductive Step : Pair → Pair → Prop where
  | left {A A' F F' G} :
    Workspace.Step G.RefersTo ⟨A, F⟩ ⟨A', F'⟩ →
    Step ⟨A, F, G⟩ ⟨A', F', G⟩
  | right {A A' F G G'} :
    Workspace.Step F.RefersTo ⟨A, G⟩ ⟨A', G'⟩ →
    Step ⟨A, F, G⟩ ⟨A', F, G'⟩

/-- Formulas without a clause in common never have one, whatever is done with either of them. -/
lemma separate_of_steps {s s' : Pair} (h : Workspace.Separate s.right.RefersTo ⟨s.arena, s.left⟩)
    (hs : Relation.ReflTransGen Step s s') :
    Workspace.Separate s'.right.RefersTo ⟨s'.arena, s'.left⟩ := by
  induction hs with
  | refl => exact h
  | tail _ hlast ih =>
    cases hlast with
    | left hcall => exact ih.of_spares (hcall.spares ih)
    | right hcall => exact (ih.symm.of_spares (hcall.spares ih.symm)).symm

end Pair

end Clausal
