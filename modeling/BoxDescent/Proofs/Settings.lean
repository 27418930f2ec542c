import BoxDescent.Settings
import BoxDescent.Proofs.Scalar.Extended

/-!
This module contains which settings pass their check: the default ones do, with any positive number of
iterations and any positive step.
-/

namespace BoxDescent.Settings

theorem check_eq_ok_iff {α : Type} [Scalar α] (s : Settings α) : s.check = .ok () ↔ s.Valid := by
  unfold check Valid
  rw [← Int.not_le]
  split
  . next h => exact ⟨nofun, fun hvalid => absurd h hvalid.1⟩
  . next hiterations =>
    split
    . next h => exact ⟨nofun, fun hvalid => absurd ⟨hvalid.2.1, hvalid.2.2.1, hvalid.2.2.2.1⟩ h⟩
    . next horder =>
      rw [Decidable.not_not] at horder
      split
      . next h => exact ⟨nofun, fun hvalid => absurd h hvalid.2.2.2.2.1⟩
      . next htolerance =>
        split
        . next h => exact ⟨nofun, fun hvalid => absurd h hvalid.2.2.2.2.2⟩
        . next hstep =>
          refine ⟨?_, fun _ => rfl⟩
          intro _
          exact ⟨hiterations, horder.1, horder.2.1, horder.2.2, htolerance, hstep⟩

open Extended

theorem valid_of_pos {k : Int} (hk : 0 < k) {m : ℝ} (hm : 0 < m) :
    ({ Settings.default with maxIterations := k, maxStep := .finite m } : Settings Extended).Valid := by
  have horder : (0 : Extended) < 1e-4 ∧ (1e-4 : Extended) < 0.9 ∧ (0.9 : Extended) < 1 := by
    simp only [ofScientific_eq, zero_eq, one_eq, finite_lt]
    norm_num
  have htolerance : ¬(1e-6 : Extended) ≤ 0 := by
    rw [ofScientific_eq, zero_eq, finite_le]
    norm_num
  have hstep : ¬Extended.finite m ≤ 0 := by
    rw [zero_eq, finite_le]
    exact not_le.mpr hm
  rw [← check_eq_ok_iff]
  unfold check Settings.default
  dsimp only
  rw [if_neg (Int.not_le.mpr hk), if_neg (Decidable.not_not.mpr horder), if_neg htolerance, if_neg hstep]

theorem valid_of_maxIterations {k : Int} (hk : 0 < k) :
    ({ Settings.default with maxIterations := k } : Settings Extended).Valid := by
  have hmaxStep : (0 : ℝ) < 100.0 := by norm_num
  exact valid_of_pos hk hmaxStep

theorem default_valid : (Settings.default : Settings Extended).Valid :=
  valid_of_maxIterations (by decide)

end BoxDescent.Settings
