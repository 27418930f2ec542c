import BoxDescent.Proofs.LineSearch.Effect
import BoxDescent.Proofs.Scalar.Extended

/-!
This module contains how far one can go along a ray in exact arithmetic: as long as no variable is on the
bound that it heads into, the longest feasible step is the one after which the first variable comes to
its bound (`Ray.IsFrom.isLongest`). That step is always a number (`isFinite_of_boundStep?`).
-/

namespace BoxDescent.LineSearch

open Extended

variable {n : Nat}

/-- Of the variables `done`, `blocking` comes to its bound first, after `limit`. -/
structure IsLongest (p : Precision Extended) (direction x : Vector Extended n)
    (working : Bounds Extended n) (done : List (Fin n)) (limit : Option Extended)
    (blocking : Option (Fin n)) : Prop where
  least : ∀ i ∈ done, ∀ m, boundStep? p direction x working i = some (.finite m) →
    ∃ l, limit = some (.finite l) ∧ l ≤ m
  attained : ∀ v, limit = some v → ∃ m i, v = .finite m ∧ 0 < m ∧ i ∈ done ∧ blocking = some i ∧
    boundStep? p direction x working i = some v
  free : limit = none → blocking = none

namespace IsLongest

variable {p : Precision Extended} {direction x : Vector Extended n} {working : Bounds Extended n}
  {done : List (Fin n)} {limit : Option Extended} {blocking : Option (Fin n)}

theorem exists_bound (h : IsLongest p direction x working done limit blocking) (hepsilon : 0 < p.epsilon)
    {i : Fin n} (hi : blocking = some i) : ∃ w, working.bound i (towards direction[i]) = some w := by
  cases hlimit : limit with
  | none =>
    rw [h.free hlimit] at hi
    cases hi
  | some v =>
    obtain ⟨_, j, _, _, _, hj, hstep⟩ := h.attained v hlimit
    rw [hi, Option.some.injEq] at hj
    subst hj
    exact exists_bound_of_boundStep? hepsilon hstep

end IsLongest

variable {p : Precision Extended} {direction x : Vector Extended n} {a : ActiveSet Extended n} {zero : ℝ}

theorem isFinite_of_boundStep? {working : Bounds Extended n} (hepsilon : 0 < p.epsilon)
    (hworking : working.AllFinite) {i : Fin n} (hx : Scalar.isFinite x[i] = true)
    (hd : Scalar.isFinite direction[i] = true) {k : Extended}
    (hk : boundStep? p direction x working i = some k) : Scalar.isFinite k = true := by
  unfold boundStep? at hk
  rw [Option.map_eq_some_iff] at hk
  obtain ⟨⟨side, v⟩, hheading, rfl⟩ := hk
  have hne := ne_zero_of_heading hepsilon hheading
  obtain ⟨u, hu⟩ := isFinite_iff.mp (hworking i side v (bound_of_heading hheading))
  obtain ⟨y, hy⟩ := isFinite_iff.mp hx
  obtain ⟨d, hd⟩ := isFinite_iff.mp hd
  rw [hd, zero_eq, ne_eq, finite_inj] at hne
  rw [hu, hy, hd, finite_sub, finite_div hne]
  rfl

theorem IsFixedBy.exact {working : Bounds Extended n} {is fixed : List (Fin n)} {step : Extended}
    (h : IsFixedBy (boundStep? p direction x working) is step fixed) (hepsilon : 0 < p.epsilon)
    (hworking : working.AllFinite) (hx : ∀ i ∈ is, Scalar.isFinite x[i] = true)
    (hd : ∀ i ∈ is, Scalar.isFinite direction[i] = true) :
    (∃ b m, IsFirstLeast (boundStep? p direction x working) is b m ∧ m ≤ step ∧ fixed = [b]) ∨
      fixed = [] ∧ ∀ i ∈ is, ∀ k, boundStep? p direction x working i = some k → ¬k ≤ step := by
  cases h with
  | reached hb hle => exact Or.inl ⟨_, _, hb, hle, rfl⟩
  | short hall =>
    refine Or.inr ⟨rfl, ?_⟩
    intro i hi k hk
    exact hall i hi k hk (Or.inl (isFinite_of_boundStep? hepsilon hworking (hx i hi) (hd i hi) hk))

theorem IsLimitedBy.isLongest {working : Bounds Extended n} {is : List (Fin n)} {limit : Option Extended}
    {blocking : Option (Fin n)} (h : IsLimitedBy (boundStep? p direction x working) is limit blocking)
    (hzero : p.zero = .finite zero) (hpos : 0 < zero)
    (hoff : ∀ i ∈ is, onBound p direction x working i = false) :
    IsLongest p direction x working is limit blocking := by
  cases h with
  | unlimited hall =>
    refine ⟨?_, nofun, fun _ => rfl⟩
    intro i hi m hm
    have hfinite := hall i hi _ hm
    rw [isFinite_finite] at hfinite
    cases hfinite
  | @blocked b v hb hv =>
    obtain ⟨l, rfl⟩ := isFinite_iff.mp hv
    refine ⟨?_, ?_, nofun⟩
    . intro i hi m hm
      have hleast := hb.least i hi _ hm
      rw [finite_lt, not_lt] at hleast
      exact ⟨l, rfl, hleast⟩
    . intro v hv
      cases hv
      have hlarge : ¬finite l ≤ p.zero := by
        intro hle
        have hon := onBound_iff.mpr ⟨_, hb.attained, hle⟩
        rw [hoff b hb.mem] at hon
        cases hon
      rw [hzero, finite_le, not_le] at hlarge
      exact ⟨l, b, rfl, hpos.trans hlarge, hb.mem, rfl, hb.attained⟩

theorem Ray.IsFrom.isLongest {r : Ray Extended n} {problem : Problem Extended n}
    {parameters : Parameters Extended} {f maxNorm : Extended} {grad d : Vector Extended n}
    (hr : r.IsFrom problem parameters a x f grad d maxNorm)
    (hzero : parameters.precision.zero = .finite zero) (hpos : 0 < zero) :
    IsLongest parameters.precision r.direction x a.working a.free r.reach r.blocking ∧
      r.activeSet = a ∧ r.newlyFixed = [] := by
  have hp : 0 < parameters.precision.zero := by
    rw [hzero, zero_eq, finite_lt]
    exact hpos
  obtain ⟨hactiveSet, hnewlyFixed, hoff, hlimited⟩ := hr.isLimitedBy hp
  exact ⟨hlimited.isLongest hzero hpos hoff, hactiveSet, hnewlyFixed⟩

end BoxDescent.LineSearch
