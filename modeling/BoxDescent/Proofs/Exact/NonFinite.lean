import BoxDescent.Proofs.Exact.Cliff
import BoxDescent.Proofs.Exact.Verdict

/-!
This module contains the values that a line search may answer if the objective and its gradient are not
always finite (`search_value`). An extrapolation takes what compares as a decrease, so it falls for
a value of minus infinity, and it goes astray where a slope is undefined (`search_falls_off`).
-/

namespace BoxDescent

open Extended

namespace LineSearch

variable {n : Nat}

/-- Whatever the objective and its gradient answer, a search from a finite value ends with a finite value
that is not larger, or it falls off: where the objective is infinitely low, or beyond a step at which the
slope is undefined. -/
theorem search_value {problem : Problem Extended n} {parameters : Parameters Extended}
    {c₁ c₂ zero : ℝ} (hp : parameters.ArePositive c₁ c₂ zero) {a : ActiveSet Extended n}
    {x : Vector Extended n} {f₀ : ℝ} {g p : Fin n → ℝ} {maxNorm : Extended} (hm : IsLimit maxNorm)
    {fuel : Nat} {s : SearchResult Extended n}
    (hs : (search fuel problem parameters a x (.finite f₀) (ofReals g) (ofReals p) maxNorm).result =
      .ok s) :
    (∃ f, s.value = .finite f ∧ f ≤ f₀ ∧ (s.status = .accepted → f < f₀)) ∨
      s.status = .accepted ∧ ∃ (r : Ray Extended n) (t : ℝ),
        r.IsFrom problem parameters a x (.finite f₀) (ofReals g) (ofReals p) maxNorm ∧
        s.step = .finite t ∧ r.InRange t ∧ r.FallsOff t s.value := by
  have hcertified := (search_certified problem.tolerates_true (fun _ _ => trivial) hp hm
    (finiteOn_ofReals a.fixed g) (Or.inr ⟨f₀, rfl⟩) trivial fuel).value s hs
  cases hcertified with
  | inl hhalts => exact Or.inl ⟨f₀, hhalts.value, le_refl _, fun h => absurd h hhalts.status⟩
  | inr haccepts =>
    obtain ⟨r, rate, t, hfrom, hr, ht⟩ := haccepts
    cases hr.value_of_verdict hfrom.value ht.pos ht.verdict with
    | inl hfinite =>
      obtain ⟨f, hf, hlt⟩ := hfinite
      exact Or.inl ⟨f, hf, hlt.le, fun _ => hlt⟩
    | inr hoff => exact Or.inr ⟨ht.status, r, t, hfrom, ht.step, ht.inRange, hoff⟩

theorem search_value_cliff :
    (search 2 (Cliff.problem .negInf (.finite 1)) Cliff.parameters (.ofBounds .unbounded) (Line.point 0)
      (.finite 0) (Line.point 1) (Line.point (-1)) (.finite 2)).result = .ok (Cliff.result .negInf) ∧
    ((∃ f, (Cliff.result .negInf).value = .finite f ∧ f ≤ 0 ∧
        ((Cliff.result .negInf).status = .accepted → f < 0)) ∨
      (Cliff.result .negInf).status = .accepted ∧ ∃ (r : Ray Extended 1) (t : ℝ),
        r.IsFrom (Cliff.problem .negInf (.finite 1)) Cliff.parameters (.ofBounds .unbounded) (Line.point 0)
          (.finite 0) (Line.point 1) (Line.point (-1)) (.finite 2) ∧
        (Cliff.result .negInf).step = .finite t ∧ r.InRange t ∧
        r.FallsOff t (Cliff.result .negInf).value) := by
  have hbottom : Extended.negInf ≤ .finite (-2 / 10000) := trivial
  exact ⟨Cliff.search_two hbottom 0, search_value Cliff.parameters_arePositive (isLimit_finite two_pos.le)
    (Cliff.search_two hbottom 0)⟩

theorem search_falls_off :
    (∀ fuel, 2 ≤ fuel → ∃ s, (search fuel (Cliff.problem .negInf (.finite 1)) Cliff.parameters
      (.ofBounds .unbounded) (ofReals fun _ : Fin 1 => 0) (.finite 0) (ofReals fun _ => 1)
      (ofReals fun _ => -1) (.finite 2)).result = .ok s ∧ s.status = .accepted ∧ s.value = .negInf) ∧
    ∀ fuel, 2 ≤ fuel → ∃ s, (search fuel (Cliff.problem .posInf .nan) Cliff.parameters
      (.ofBounds .unbounded) (ofReals fun _ : Fin 1 => 0) (.finite 0) (ofReals fun _ => 1)
      (ofReals fun _ => -1) (.finite 2)).result = .ok s ∧ s.status = .accepted ∧ s.value = .posInf := by
  constructor
  . intro fuel hfuel
    have hbottom : Extended.negInf ≤ .finite (-2 / 10000) := trivial
    obtain ⟨k, rfl⟩ := Nat.exists_eq_add_of_le' hfuel
    exact ⟨_, Cliff.search_two hbottom k, rfl, rfl⟩
  . intro fuel hfuel
    obtain ⟨k, rfl⟩ := Nat.exists_eq_add_of_le' hfuel
    exact ⟨_, Cliff.search_posInf k, rfl, rfl⟩

end LineSearch

end BoxDescent
