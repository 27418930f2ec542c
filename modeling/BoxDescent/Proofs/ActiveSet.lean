import Mathlib.Order.Fin.Basic
import BoxDescent.ActiveSet
import BoxDescent.Proofs.Scalar.Lawful
import BoxDescent.Proofs.Vector

/-!
This module contains the invariant of an active set: `ActiveSet.Holds` says which variables are held, that
each of them sits on a bound that is out of force, and that the point stays inside its box. Fixing a
variable, moving the free ones and releasing a variable keep it.
-/

namespace BoxDescent

def Side.opposite : Side → Side
  | .lower => .upper
  | .upper => .lower

theorem Side.eq_or_eq_opposite (s t : Side) : t = s ∨ t = s.opposite := by
  cases s <;> cases t <;> simp [opposite]

theorem Side.opposite_ne (s : Side) : s.opposite ≠ s := by
  cases s <;> simp [opposite]

namespace Bounds

variable {α : Type} [Scalar α] {n : Nat}

def Contains (b : Bounds α n) (x : Vector α n) : Prop :=
  ∀ i : Fin n, (∀ l, b.bound i .lower = some l → ¬x[i] < l) ∧
    ∀ u, b.bound i .upper = some u → ¬u < x[i]

def AllFinite (b : Bounds α n) : Prop :=
  ∀ i side v, b.bound i side = some v → Scalar.isFinite v = true

def Separates (b : Bounds α n) (x : Vector α n) : Prop :=
  ∀ (i : Fin n) (l u : α), b.bound i .lower = some l → b.bound i .upper = some u →
    x[i] ≤ x[i] → l < u

theorem not_lt_of_not_crossed {b : Bounds α n} (h : b.crossed = false) {i : Fin n} {l u : α}
    (hl : b.bound i .lower = some l) (hu : b.bound i .upper = some u) : ¬u < l := by
  intro hul
  have hi := List.any_eq_false.mp h i (List.mem_finRange i)
  rw [hl, hu] at hi
  simp only [decide_eq_true_eq] at hi
  exact hi hul

def raised (l : Option α) (x : α) : α :=
  match l with
  | some l => if x < l then l else x
  | none => x

def lowered (u : Option α) (x : α) : α :=
  match u with
  | some u => if x > u then u else x
  | none => x

theorem clip_eq (b : Bounds α n) (i : Fin n) (x : α) :
    b.clip i x = lowered (b.bound i .upper) (raised (b.bound i .lower) x) := rfl

theorem reached_lower {b : Bounds α n} {i : Fin n} {x l : α} (hl : b.bound i .lower = some l) :
    b.reached i x .lower = decide (x ≤ l) := by
  simp only [reached, hl]

theorem reached_upper {b : Bounds α n} {i : Fin n} {x u : α} (hu : b.bound i .upper = some u) :
    b.reached i x .upper = decide (u ≤ x) := by
  simp only [reached, hu, ge_iff_le]

theorem reached_of_eq {b : Bounds α n} {i : Fin n} {side : Side} {v : α}
    (hv : b.bound i side = some v) (hself : v ≤ v) : b.reached i v side = true := by
  cases side with
  | lower =>
    rw [reached_lower hv]
    exact decide_eq_true hself
  | upper =>
    rw [reached_upper hv]
    exact decide_eq_true hself

theorem separates_set {b : Bounds α n} {x : Vector α n} (h : b.Separates x) {i : Fin n}
    (hi : x[i] ≤ x[i]) (v : α) : b.Separates (x.set i v i.isLt) := by
  intro j l u hl hu hj
  rw [getElem_set] at hj
  split at hj
  . next hij =>
    subst hij
    exact h i l u hl hu hi
  . exact h j l u hl hu hj

variable [Scalar.Lawful α]

theorem not_clip_lt {b : Bounds α n} (h : b.crossed = false) {i : Fin n} {x l : α}
    (hl : b.bound i .lower = some l) : ¬b.clip i x < l := by
  have hraised : ¬raised (some l) x < l := by
    unfold raised
    dsimp
    split
    . exact Scalar.lt_irrefl
    . assumption
  rw [clip_eq, hl]
  cases hu : b.bound i .upper with
  | none => exact hraised
  | some u =>
    unfold lowered
    dsimp
    split
    . exact not_lt_of_not_crossed h hl hu
    . exact hraised

theorem not_lt_clip {b : Bounds α n} {i : Fin n} {x u : α} (hu : b.bound i .upper = some u) :
    ¬u < b.clip i x := by
  rw [clip_eq, hu]
  unfold lowered
  dsimp
  split
  . exact Scalar.lt_irrefl
  . assumption

theorem clip_undefined {b : Bounds α n} {i : Fin n} {x : α} (hx : ¬x ≤ x) : b.clip i x = x := by
  -- No comparison holds of such a value.
  have hlt : ∀ l, ¬x < l := fun l h => hx (Scalar.Lawful.le_self_left (Scalar.le_of_lt h))
  have hgt : ∀ u, ¬u < x := fun u h => hx (Scalar.Lawful.le_self_right (Scalar.le_of_lt h))
  rw [clip_eq]
  cases b.bound i .lower <;> cases b.bound i .upper <;> simp [raised, lowered, hlt, hgt]

theorem contains_set {b : Bounds α n} (h : b.crossed = false) {x : Vector α n} (hx : b.Contains x)
    {i : Fin n} {side : Side} {v : α} (hv : b.bound i side = some v) : b.Contains (x.set i v i.isLt) := by
  intro j
  rw [getElem_set]
  split
  . next hij =>
    subst hij
    cases side with
    | lower =>
      constructor
      . intro l hl
        rw [hv, Option.some.injEq] at hl
        rw [hl]
        exact Scalar.lt_irrefl
      . intro u hu
        exact not_lt_of_not_crossed h hv hu
    | upper =>
      constructor
      . intro l hl
        exact not_lt_of_not_crossed h hl hv
      . intro u hu
        rw [hv, Option.some.injEq] at hu
        rw [hu]
        exact Scalar.lt_irrefl
  . exact hx j

end Bounds

namespace ActiveSet

variable {α : Type} {n : Nat}

structure HeldAt (a : ActiveSet α n) (b : Bounds α n) (i : Fin n) (side : Side) (v : α) : Prop where
  original : b.bound i side = some v
  removed : a.working.bound i side = none
  opposite : a.working.bound i side.opposite = b.bound i side.opposite

theorem nodup_free (a : ActiveSet α n) : a.free.Nodup :=
  (List.nodup_finRange n).filter _

theorem mem_free {a : ActiveSet α n} {i : Fin n} : i ∈ a.free ↔ a.fixed[i] = false :=
  mem_unmasked

def fixEach (a : ActiveSet α n) (side : Fin n → Side) (is : List (Fin n)) : ActiveSet α n :=
  is.foldl (fun a i => a.fix i (side i)) a

section FixEach

variable (a : ActiveSet α n) (side : Fin n → Side) (is : List (Fin n))

theorem fixEach_append_singleton (i : Fin n) :
    a.fixEach side (is ++ [i]) = (a.fixEach side is).fix i (side i) := by
  unfold fixEach
  rw [List.foldl_append, List.foldl_cons, List.foldl_nil]

theorem bounds_fixEach : (a.fixEach side is).bounds = a.bounds := by
  induction is generalizing a with
  | nil => rfl
  | cons i is ih => exact ih (a.fix i (side i))

theorem indices_fixEach : (a.fixEach side is).indices = a.indices ++ is := by
  induction is generalizing a with
  | nil => exact (List.append_nil _).symm
  | cons i is ih =>
    apply (ih (a.fix i (side i))).trans
    simp only [fix, List.append_assoc, List.singleton_append]

theorem fixed_fixEach (i : Fin n) :
    (a.fixEach side is).fixed[i] = true ↔ a.fixed[i] = true ∨ i ∈ is := by
  induction is generalizing a with
  | nil => simp [fixEach]
  | cons j is ih =>
    apply (ih (a.fix j (side j))).trans
    simp only [fix, getElem_set, List.mem_cons]
    split
    . next hji => simp [hji]
    . next hji => simp [Ne.symm hji]

theorem working_fixEach (i : Fin n) (s : Side) : (a.fixEach side is).working.bound i s =
    if i ∈ is ∧ s = side i then none else a.working.bound i s := by
  induction is generalizing a with
  | nil => simp [fixEach]
  | cons j is ih =>
    apply (ih (a.fix j (side j))).trans
    simp only [fix, Bounds.bound_set, List.mem_cons]
    by_cases hij : j = i
    . subst hij
      by_cases hs : s = side j
      . simp [hs]
      . simp [hs, Ne.symm hs]
    . simp [hij, Ne.symm hij]

end FixEach

variable [Scalar α]

/-- The variables on the list `held`, and no others, are held at bounds of `b`, where they sit. -/
structure Holds (a : ActiveSet α n) (b : Bounds α n) (held : List (Fin n)) (x : Vector α n) :
    Prop where
  bounds : a.bounds = b
  nodup : held.Nodup
  mem : ∀ i : Fin n, i ∈ held ↔ a.fixed[i] = true
  free : ∀ i : Fin n, a.fixed[i] = false → ∀ side, a.working.bound i side = b.bound i side
  sits : ∀ i : Fin n, a.fixed[i] = true → ∃ side, a.HeldAt b i side x[i]
  contains : b.Contains x

theorem holds_ofBounds {b : Bounds α n} {x : Vector α n} (hx : b.Contains x) :
    (ofBounds b).Holds b [] x where
  bounds := rfl
  nodup := List.nodup_nil
  mem := by simp [ofBounds]
  free := fun _ _ _ => rfl
  sits := by simp [ofBounds]
  contains := hx

namespace Holds

variable {a : ActiveSet α n} {b : Bounds α n} {held : List (Fin n)} {x : Vector α n}

theorem perm (h : a.Holds b held x) {held' : List (Fin n)} (hp : held'.Perm held) :
    a.Holds b held' x where
  bounds := h.bounds
  nodup := hp.nodup_iff.mpr h.nodup
  mem := by
    intro i
    rw [hp.mem_iff]
    exact h.mem i
  free := h.free
  sits := h.sits
  contains := h.contains

theorem withIndices (h : a.Holds b held x) (is : List (Fin n)) :
    { a with indices := is }.Holds b held x :=
  ⟨h.bounds, h.nodup, h.mem, h.free,
    fun i hi => (h.sits i hi).imp fun _ hs => ⟨hs.original, hs.removed, hs.opposite⟩, h.contains⟩

theorem move (h : a.Holds b held x) {y : Vector α n} (hy : b.Contains y)
    (hfixed : ∀ i : Fin n, a.fixed[i] = true → y[i] = x[i]) : a.Holds b held y where
  bounds := h.bounds
  nodup := h.nodup
  mem := h.mem
  free := h.free
  sits := by
    intro i hi
    rw [hfixed i hi]
    exact h.sits i hi
  contains := hy

variable [Scalar.Lawful α]

theorem fix (h : a.Holds b held x) (hb : b.crossed = false) {i : Fin n} (hi : a.fixed[i] = false)
    {side : Side} {v : α} (hv : b.bound i side = some v) :
    (a.fix i side).Holds b (held ++ [i]) (x.set i v i.isLt) where
  bounds := h.bounds
  nodup := by
    rw [List.nodup_append]
    refine ⟨h.nodup, List.pairwise_singleton _ i, ?_⟩
    intro j hj k hk
    rw [List.mem_singleton] at hk
    intro hjk
    rw [hjk, hk, h.mem, hi] at hj
    cases hj
  mem := by
    intro j
    rw [List.mem_append, List.mem_singleton, h.mem]
    simp only [ActiveSet.fix, getElem_set]
    split
    . next hij => simp [hij]
    . next hij =>
      constructor
      . intro hj
        cases hj with
        | inl hj => exact hj
        | inr hj => exact absurd hj.symm hij
      . intro hj
        exact Or.inl hj
  free := by
    intro j hj side'
    simp only [ActiveSet.fix, getElem_set] at hj
    split at hj
    . cases hj
    . next hij =>
      simp only [ActiveSet.fix, Bounds.bound_set, hij, false_and, ↓reduceIte]
      exact h.free j hj side'
  sits := by
    intro j hj
    simp only [ActiveSet.fix, getElem_set] at hj ⊢
    split at hj
    . next hij =>
      subst hij
      -- The variable that is held now has lost the bound on `side`, and keeps the other one.
      refine ⟨side, ?_, ?_, ?_⟩
      . simpa using hv
      . simp [Bounds.bound_set]
      . simp only [Bounds.bound_set, true_and, Ne.symm side.opposite_ne, ↓reduceIte]
        exact h.free i hi side.opposite
    . next hij =>
      obtain ⟨t, ht⟩ := h.sits j hj
      rw [if_neg hij]
      refine ⟨t, ht.original, ?_, ?_⟩
      . simpa [Bounds.bound_set, hij] using ht.removed
      . simpa [Bounds.bound_set, hij] using ht.opposite
  contains := Bounds.contains_set hb h.contains hv

theorem le_self (h : a.Holds b held x) (hb : b.AllFinite) {i : Fin n} (hi : a.fixed[i] = true) :
    x[i] ≤ x[i] := by
  obtain ⟨side, hs⟩ := h.sits i hi
  exact Scalar.Lawful.le_self_of_isFinite (hb i side _ hs.original)

theorem heldAt_sideOf (h : a.Holds b held x) (hb : b.AllFinite) (hsep : b.Separates x) {i : Fin n}
    (hi : a.fixed[i] = true) : a.HeldAt b i (a.sideOf i x[i]) x[i] := by
  have hself := h.le_self hb hi
  obtain ⟨side, hs⟩ := h.sits i hi
  have hside : a.sideOf i x[i] = side := by
    unfold sideOf
    rw [h.bounds]
    cases side with
    | lower => rw [if_pos (Bounds.reached_of_eq hs.original hself)]
    | upper =>
      -- `sideOf` asks for the lower bound first, but no value reaches both bounds.
      rw [if_neg]
      intro hreached
      cases hl : b.bound i .lower with
      | none => simp [Bounds.reached, hl] at hreached
      | some l =>
        rw [Bounds.reached_lower hl, decide_eq_true_eq] at hreached
        exact Scalar.not_le_of_lt (hsep i l _ hl hs.original hself) hreached
  rw [hside]
  exact hs

theorem release {i : Fin n} (h : a.Holds b (i :: held) x) (hb : b.AllFinite) (hsep : b.Separates x) :
    (a.release i x[i]).Holds b held x where
  bounds := h.bounds
  nodup := (List.nodup_cons.mp h.nodup).2
  mem := by
    intro j
    have hmem := h.mem j
    rw [List.mem_cons] at hmem
    simp only [ActiveSet.release, getElem_set]
    split
    . next hij =>
      subst hij
      simp [(List.nodup_cons.mp h.nodup).1]
    . next hij =>
      rw [or_iff_right (Ne.symm hij)] at hmem
      exact hmem
  free := by
    intro j hj side
    simp only [ActiveSet.release, getElem_set] at hj
    simp only [ActiveSet.release, Bounds.bound_set, h.bounds]
    split at hj
    . next hij =>
      subst hij
      -- One bound is put back, and the other one has been in force all the time.
      have hheld := h.heldAt_sideOf hb hsep ((h.mem i).mp (List.mem_cons_self))
      cases Side.eq_or_eq_opposite (a.sideOf i x[i]) side with
      | inl hs => simp [hs]
      | inr hs =>
        rw [hs]
        simp only [true_and, Ne.symm (Side.opposite_ne _), ↓reduceIte]
        exact hheld.opposite
    . next hij =>
      simp only [hij, false_and, ↓reduceIte]
      exact h.free j hj side
  sits := by
    intro j hj
    simp only [ActiveSet.release, getElem_set] at hj
    split at hj
    . cases hj
    . next hij =>
      obtain ⟨t, ht⟩ := h.sits j hj
      refine ⟨t, ht.original, ?_, ?_⟩
      . simpa [ActiveSet.release, Bounds.bound_set, hij] using ht.removed
      . simpa [ActiveSet.release, Bounds.bound_set, hij] using ht.opposite
  contains := h.contains

theorem multiplier (h : a.Holds b held x) (hb : b.AllFinite) (grad : Vector α n) {i : Fin n}
    (hi : a.fixed[i] = true) : ∃ m, a.multiplier x grad i = .ok m := by
  have hself := h.le_self hb hi
  obtain ⟨side, hs⟩ := h.sits i hi
  have hreached : a.bounds.reached i x[i] side = true := by
    rw [h.bounds]
    exact Bounds.reached_of_eq hs.original hself
  unfold ActiveSet.multiplier
  split
  . exact ⟨_, rfl⟩
  . cases side with
    | lower => exact ⟨_, by rw [if_pos hreached]⟩
    | upper => contradiction

end Holds

end ActiveSet

end BoxDescent
