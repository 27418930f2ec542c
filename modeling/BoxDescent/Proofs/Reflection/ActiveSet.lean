import BoxDescent.Solver
import BoxDescent.Proofs.ActiveSet
import BoxDescent.Proofs.Reflection.Factor

/-!
This module contains boxes and active sets in reflected coordinates. Where a sign is turned around the two
sides of the box trade places. What is done to a lower bound is then also done to an upper one, as long as
no value reaches both sides of a box at once.
-/

namespace BoxDescent

def Side.turned (s : Bool) (side : Side) : Side :=
  if s then side.opposite else side

namespace Side

variable {s : Bool} {side : Side}

theorem turned_turned : (side.turned s).turned s = side := by
  cases s <;> cases side <;> rfl

end Side

variable {n : Nat} (σ : Fin n → Bool)

namespace Bounds

noncomputable def reflect (b : Bounds Extended n) : Bounds Extended n :=
  { lower := Vector.ofFn fun i => (b.bound i (Side.lower.turned (σ i))).map (signed (σ i))
    upper := Vector.ofFn fun i => (b.bound i (Side.upper.turned (σ i))).map (signed (σ i)) }

theorem bounds_ext {α : Type} {b c : Bounds α n} (h : ∀ i side, b.bound i side = c.bound i side) :
    b = c := by
  obtain ⟨l, u⟩ := b
  obtain ⟨l', u'⟩ := c
  rw [show l = l' from vector_ext fun i => h i .lower, show u = u' from vector_ext fun i => h i .upper]

variable (b : Bounds Extended n) (i : Fin n)

theorem bound_reflect (side : Side) :
    (b.reflect σ).bound i side = (b.bound i (side.turned (σ i))).map (signed (σ i)) := by
  cases side <;> exact getElem_vectorOfFn _ i

theorem bound_reflect_turned (side : Side) :
    (b.reflect σ).bound i (side.turned (σ i)) = (b.bound i side).map (signed (σ i)) := by
  rw [bound_reflect, Side.turned_turned]

theorem set_reflect (side : Side) (value : Option Extended) :
    (b.reflect σ).set i (side.turned (σ i)) (value.map (signed (σ i))) =
      (b.set i side value).reflect σ := by
  apply bounds_ext
  intro j side'
  rw [bound_set, bound_reflect, bound_reflect, bound_set]
  by_cases hij : i = j ∧ side = side'.turned (σ j)
  . obtain ⟨rfl, rfl⟩ := hij
    rw [Side.turned_turned, if_pos ⟨rfl, rfl⟩, if_pos ⟨rfl, rfl⟩]
  . rw [if_neg hij, if_neg]
    rintro ⟨rfl, rfl⟩
    exact hij ⟨rfl, Side.turned_turned.symm⟩

theorem reached_none {α : Type} [Scalar α] {b : Bounds α n} {i : Fin n} {side : Side}
    (h : b.bound i side = none) (x : α) : b.reached i x side = false := by
  cases side <;> simp only [reached, h]

theorem reached_reflect (x : Extended) (side : Side) :
    (b.reflect σ).reached i (signed (σ i) x) (side.turned (σ i)) = b.reached i x side := by
  have hbound := bound_reflect_turned σ b i side
  cases hv : b.bound i side with
  | none =>
    rw [hv] at hbound
    rw [reached_none hbound, reached_none hv]
  | some v =>
    rw [hv] at hbound
    cases hs : σ i with
    | false =>
      rw [hs] at hbound
      cases side with
      | lower => exact (reached_lower hbound).trans (reached_lower hv).symm
      | upper => exact (reached_upper hbound).trans (reached_upper hv).symm
    | true =>
      rw [hs] at hbound
      cases side with
      | lower =>
        refine (reached_upper hbound).trans (Eq.trans ?_ (reached_lower hv).symm)
        exact decide_eq_decide.mpr Extended.neg_le_neg_eq
      | upper =>
        refine (reached_lower hbound).trans (Eq.trans ?_ (reached_upper hv).symm)
        exact decide_eq_decide.mpr Extended.neg_le_neg_eq

theorem crossed_reflect : (b.reflect σ).crossed = b.crossed := by
  unfold crossed
  congr 1
  funext i
  rw [bound_reflect, bound_reflect]
  cases σ i with
  | false => cases hl : b.bound i .lower <;> cases hu : b.bound i .upper <;> simp [Side.turned, hl, hu]
  | true =>
    cases hl : b.bound i .lower <;> cases hu : b.bound i .upper <;>
      simp [Side.turned, Side.opposite, hl, hu, Extended.neg_lt_neg_eq]

theorem checkStart_reflect (x : Vector Extended n) :
    (b.reflect σ).checkStart (BoxDescent.reflect σ x) = b.checkStart x := by
  have hreached : (fun i : Fin n => (b.reflect σ).reached i (BoxDescent.reflect σ x)[i] .lower ||
      (b.reflect σ).reached i (BoxDescent.reflect σ x)[i] .upper) =
      fun i : Fin n => b.reached i x[i] .lower || b.reached i x[i] .upper := by
    funext i
    have hlower := reached_reflect σ b i x[i] .lower
    have hupper := reached_reflect σ b i x[i] .upper
    rw [getElem_reflect]
    cases hs : σ i with
    | false =>
      rw [hs] at hlower hupper
      exact congrArg₂ or hlower hupper
    | true =>
      rw [hs] at hlower hupper
      rw [Bool.or_comm]
      exact congrArg₂ or hlower hupper
  unfold checkStart
  rw [crossed_reflect, hreached]

theorem raised_neg (u : Option Extended) (x : Extended) :
    raised (u.map (signed true)) (-x) = -lowered u x := by
  cases u with
  | none => rfl
  | some u =>
    show (if -x < -u then -u else -x) = -(if u < x then u else x)
    simp only [Extended.neg_lt_neg_eq]
    split
    . rfl
    . rfl

theorem lowered_neg (l : Option Extended) (x : Extended) :
    lowered (l.map (signed true)) (-x) = -raised l x := by
  cases l with
  | none => rfl
  | some l =>
    show (if -l < -x then -l else -x) = -(if x < l then l else x)
    simp only [Extended.neg_lt_neg_eq]
    split
    . rfl
    . rfl

theorem raised_lowered {l u : Option Extended} (h : ∀ l' u', l = some l' → u = some u' → ¬u' < l')
    (x : Extended) : raised l (lowered u x) = lowered u (raised l x) := by
  cases l with
  | none => rfl
  | some l => cases u with
    | none => rfl
    | some u =>
      have hlu := h l u rfl rfl
      show (if (if u < x then u else x) < l then l else if u < x then u else x) =
        if u < (if x < l then l else x) then u else if x < l then l else x
      by_cases hxl : x < l
      . have hxu : ¬u < x := fun hxu => hlu (Scalar.lt_of_lt_of_le hxu (Scalar.le_of_lt hxl))
        simp only [hxl, hxu, hlu, if_true, if_false]
      . by_cases hxu : u < x
        . simp only [hxl, hxu, hlu, if_true, if_false]
        . simp only [hxl, hxu, if_false]

variable {b} {i}

theorem clip_reflect (h : ∀ l u, b.bound i .lower = some l → b.bound i .upper = some u → ¬u < l)
    (x : Extended) : (b.reflect σ).clip i (signed (σ i) x) = signed (σ i) (b.clip i x) := by
  rw [clip_eq, clip_eq, bound_reflect, bound_reflect]
  cases hs : σ i with
  | false =>
    show lowered ((b.bound i .upper).map fun v => v) (raised ((b.bound i .lower).map fun v => v) x) =
      lowered (b.bound i .upper) (raised (b.bound i .lower) x)
    rw [Option.map_id', Option.map_id']
  | true =>
    show lowered ((b.bound i .lower).map (signed true)) (raised ((b.bound i .upper).map (signed true)) (-x))
      = -lowered (b.bound i .upper) (raised (b.bound i .lower) x)
    rw [raised_neg, lowered_neg, raised_lowered h]

end Bounds

namespace ActiveSet

noncomputable def reflect (a : ActiveSet Extended n) : ActiveSet Extended n :=
  { a with bounds := a.bounds.reflect σ, working := a.working.reflect σ }

theorem fix_reflect (a : ActiveSet Extended n) (i : Fin n) (side : Side) :
    (a.reflect σ).fix i (side.turned (σ i)) = (a.fix i side).reflect σ := by
  unfold fix reflect
  dsimp only
  rw [← Bounds.set_reflect]
  rfl

variable {a : ActiveSet Extended n} {b : Bounds Extended n} {held : List (Fin n)} {x : Vector Extended n}

theorem not_reached_both (hsep : b.Separates x) {i : Fin n} (hlower : b.reached i x[i] .lower = true) :
    b.reached i x[i] .upper = false := by
  cases hl : b.bound i .lower with
  | none =>
    rw [Bounds.reached_none hl] at hlower
    cases hlower
  | some l => cases hu : b.bound i .upper with
    | none => exact Bounds.reached_none hu _
    | some u =>
      rw [Bounds.reached_lower hl, decide_eq_true_eq] at hlower
      rw [Bounds.reached_upper hu, decide_eq_false_iff_not]
      intro hupper
      have hlu := hsep i l u hl hu (Scalar.Lawful.le_self_left hlower)
      exact Scalar.not_le_of_lt hlu (Scalar.Lawful.le_trans hupper hlower)

theorem Holds.reached (h : a.Holds b held x) (hb : b.AllFinite) {i : Fin n} (hi : a.fixed[i] = true) :
    b.reached i x[i] .lower = true ∨ b.reached i x[i] .upper = true := by
  obtain ⟨side, hs⟩ := h.sits i hi
  have hreached := Bounds.reached_of_eq hs.original (h.le_self hb hi)
  cases side with
  | lower => exact Or.inl hreached
  | upper => exact Or.inr hreached

theorem sideOf_reflect (h : a.Holds b held x) (hb : b.AllFinite) (hsep : b.Separates x) {i : Fin n}
    (hi : a.fixed[i] = true) :
    (a.reflect σ).sideOf i (signed (σ i) x[i]) = (a.sideOf i x[i]).turned (σ i) := by
  have hbounds : (a.reflect σ).bounds = b.reflect σ := by
    rw [← h.bounds]
    rfl
  unfold sideOf
  rw [hbounds, h.bounds]
  have hlower := Bounds.reached_reflect σ b i x[i] .lower
  have hupper := Bounds.reached_reflect σ b i x[i] .upper
  cases hs : σ i with
  | false =>
    rw [hs] at hlower
    rw [show (b.reflect σ).reached i (signed false x[i]) .lower = b.reached i x[i] .lower from hlower]
    rfl
  | true =>
    rw [hs] at hupper
    rw [show (b.reflect σ).reached i (signed true x[i]) .lower = b.reached i x[i] .upper from hupper]
    cases hreached : b.reached i x[i] .lower with
    | true =>
      rw [not_reached_both hsep hreached]
      rfl
    | false =>
      have hor := h.reached hb hi
      rw [hreached] at hor
      rw [hor.resolve_left Bool.false_ne_true]
      rfl

theorem release_reflect (h : a.Holds b held x) (hb : b.AllFinite) (hsep : b.Separates x) {i : Fin n}
    (hi : a.fixed[i] = true) :
    (a.reflect σ).release i (signed (σ i) x[i]) = (a.release i x[i]).reflect σ := by
  unfold release
  dsimp only
  rw [sideOf_reflect σ h hb hsep hi]
  unfold reflect
  dsimp only
  rw [Bounds.bound_reflect_turned, Bounds.set_reflect]

theorem multiplier_reflect (hbounds : a.bounds = b) (hsep : b.Separates x) (grad : Vector Extended n)
    (i : Fin n) :
    Corresponds Error.Alike Eq (a.multiplier x grad i)
      ((a.reflect σ).multiplier (BoxDescent.reflect σ x) (BoxDescent.reflect σ grad) i) := by
  have hbounds' : (a.reflect σ).bounds = b.reflect σ := by
    rw [← hbounds]
    rfl
  unfold multiplier
  rw [hbounds, hbounds', getElem_reflect, getElem_reflect]
  have hlower := Bounds.reached_reflect σ b i x[i] .lower
  have hupper := Bounds.reached_reflect σ b i x[i] .upper
  cases hs : σ i with
  | false =>
    rw [hs] at hlower hupper
    rw [show (b.reflect σ).reached i (signed false x[i]) .lower = b.reached i x[i] .lower from hlower,
      show (b.reflect σ).reached i (signed false x[i]) .upper = b.reached i x[i] .upper from hupper]
    refine corresponds_ite ?_ (corresponds_ite ?_ ?_)
    . exact .ok rfl
    . exact .ok rfl
    . exact .error (.offBounds _ _ _ _ _ _ _)
  | true =>
    rw [hs] at hlower hupper
    rw [show (b.reflect σ).reached i (signed true x[i]) .lower = b.reached i x[i] .upper from hupper,
      show (b.reflect σ).reached i (signed true x[i]) .upper = b.reached i x[i] .lower from hlower]
    cases hreached : b.reached i x[i] .lower with
    | true =>
      rw [not_reached_both hsep hreached, if_neg Bool.false_ne_true, if_pos rfl, if_pos rfl]
      exact .ok Extended.neg_neg_eq.symm
    | false =>
      rw [if_neg Bool.false_ne_true, if_neg Bool.false_ne_true]
      refine corresponds_ite ?_ ?_
      . exact .ok rfl
      . exact .error (.offBounds _ _ _ _ _ _ _)

end ActiveSet

end BoxDescent
