import BoxDescent.Input.Check
import BoxDescent.Proofs.DerivativeCheck
import BoxDescent.Proofs.Input.Model

/-!
This module contains the check of derivatives of models: what a result was compared from
(`Input.isOfModel_of_checkDerivatives`), and that the check of a model whose derivatives fit is that of the
problem (`Input.checkDerivatives_eq`).
-/

namespace BoxDescent

variable {α β γ δ : Type} {n : Nat}

namespace Grid

theorem stretched?_ofArray (v : Vector β n) (i : Fin n) :
    (ofArray v.toArray).stretched? [i.val] = some v[i] := by
  have hplace : (if n = 1 then 0 else i.val) = i.val := by
    split
    . omega
    . rfl
  unfold stretched? rank
  rw [shape_ofArray]
  show (ofArray v.toArray).get? [if n = 1 then 0 else i.val] = _
  rw [hplace, get?_ofArray]
  simp

theorem combine_ofArray (f : β → γ → δ) (v : Vector β n) (w : Vector γ n) :
    (combine f (ofArray v.toArray) (ofArray w.toArray) : Except (Fault α) (Grid δ)) =
      .ok (ofArray (Vector.ofFn fun i : Fin n => f v[i] w[i]).toArray) := by
  have hjoint : joint (ofArray v.toArray).shape (ofArray w.toArray).shape = some [n] := by
    rw [shape_ofArray, shape_ofArray]
    unfold joint joint.aligned
    simp [joint.aligned]
  unfold combine
  rw [hjoint]
  dsimp only
  rw [Except.ok.injEq]
  apply tabulate_eq_ofArray
  intro i
  rw [stretched?_ofArray, stretched?_ofArray, getElem_vectorOfFn]
  rfl

end Grid

namespace Input

open DerivativeCheck

theorem result_toVector {k : Nat} (c : Vector (Comparison α) k) (tolerance : α)
    (hessian : Option (Vector (Option (Vector (Comparison α) n)) n)) :
    (⟨c.toArray.size, { tolerance, gradient := c.toArray.toVector, hessian }⟩ : Σ k, Result α k n) =
      ⟨k, { tolerance, gradient := c, hessian }⟩ := by
  obtain ⟨c, rfl⟩ := c
  rfl

theorem compareAll_toArray (supplied differences : Vector α n) :
    compareAll supplied.toArray differences.toArray =
      .ok (DerivativeCheck.compare supplied differences).toArray := by
  unfold compareAll
  rw [Grid.combine_ofArray]
  rfl

theorem checkPrinted_of_le {k size : Nat} (h : k ≤ size) (bad : List (Fin k)) :
    (checkPrinted size bad : Except (Fault α) Unit) = .ok () := by
  have hall : bad.all (·.val < size) = true := by
    rw [List.all_eq_true]
    intro i _
    rw [decide_eq_true_eq]
    exact Nat.lt_of_lt_of_le i.isLt h
  unfold checkPrinted
  rw [if_pos hall]

variable [Scalar α] {m : Model α} {root tolerance : α}

/-- The comparisons are those of the derivatives of a model at `x` with forward differences. Derivatives of
another length are matched with the differences as grids are. -/
structure IsOfModel {k : Nat} (r : Result α k n) (m : Model α) (root step : α) (x : Vector α n) :
    Prop where
  gradient : ∃ supplied differences, m.gradient x.toArray = .ok supplied ∧
    forwardDifferences root step (m.objective ·.toArray) x = .ok differences ∧
      compareAll supplied differences.toArray = .ok r.gradient.toArray
  absent : m.hessianRow = none → r.hessian = none
  rows : ∀ row, m.hessianRow = some row → ∃ rows, r.hessian = some rows ∧
    ∀ i : Fin n, ∃ compared, checkRow m row root step x i = .ok compared ∧
      rows[i] = compared.map Prod.fst

omit [Scalar α] in
theorem of_printed {β : Type} {printed : Bool} {check : Except (Fault α) Unit}
    {rest : Unit → Except (Fault α) β} {b : β}
    (h : (if printed then check >>= rest else rest ()) = .ok b) : rest () = .ok b := by
  cases printed with
  | false => exact h
  | true =>
    obtain ⟨_, _, h⟩ := except_bind_eq_ok_iff.mp h
    exact h

theorem isOfModel_of_checkDerivatives {x : Vector α n} {step : Option α} {printed : Bool} {k : Nat}
    {r : Result α k n} (h : checkDerivatives m root x step tolerance printed = .ok ⟨k, r⟩) :
    r.tolerance = tolerance ∧ IsOfModel r m root (step.getD (defaultStep root x)) x := by
  unfold checkDerivatives at h
  obtain ⟨supplied, hsupplied, h⟩ := except_bind_eq_ok_iff.mp h
  obtain ⟨differences, hdifferences, h⟩ := except_bind_eq_ok_iff.mp h
  obtain ⟨gradient, hgradient, h⟩ := except_bind_eq_ok_iff.mp h
  have h := of_printed h
  cases hhessian : m.hessianRow with
  | none =>
    rw [hhessian] at h
    cases h
    refine ⟨rfl, ⟨supplied, differences, hsupplied, hdifferences, hgradient⟩, fun _ => rfl, ?_⟩
    rw [hhessian]
    exact nofun
  | some row =>
    rw [hhessian] at h
    obtain ⟨rows, hrows, h⟩ := except_bind_eq_ok_iff.mp h
    cases h
    refine ⟨rfl, ⟨supplied, differences, hsupplied, hdifferences, hgradient⟩, ?_, ?_⟩
    . rw [hhessian]
      exact nofun
    . intro row hrow
      cases hhessian.symm.trans hrow
      refine ⟨rows, rfl, ?_⟩
      intro i
      obtain ⟨compared, hcompared, hi⟩ := except_bind_eq_ok_iff.mp (ofFnM_eq_ok_iff.mp hrows i)
      refine ⟨compared, hcompared, ?_⟩
      cases compared with
      | none => exact (Except.ok.inj hi).symm
      | some compared =>
        have hi := of_printed hi
        exact (Except.ok.inj hi).symm

section Fits

variable (hm : m.Fits n) (x : Vector α n)
include hm

omit [Scalar α] in
theorem entry_eq (i : Fin n) :
    (fun z : Vector α n => do
      let g ← m.gradient z.toArray
      match g[i.val]? with
      | some d => return d
      | none => .error .outOfRange : Vector α n → Except (Fault α) α) =
      fun z => do return (← (m.problem n).gradient z)[i] := by
  funext z
  rw [hm.gradient_eq z]
  cases (m.problem n).gradient z with
  | error e => rfl
  | ok g =>
    show (match g.toArray[i.val]? with
      | some d => Except.ok d
      | none => Except.error Fault.outOfRange) = Except.ok g[i]
    simp

theorem checkRow_fits (row : Array α → Int → Except (Fault α) (Option (Array α))) (step : α) (i : Fin n) :
    checkRow m row root step x i = (do
      let supplied ← row x.toArray (i.val : Int)
      let differences ←
        forwardDifferences root step (fun z => do return (← (m.problem n).gradient z)[i]) x
      match supplied with
      | none => return none
      | some supplied => match sized? n (← compareAll supplied differences.toArray) with
        | some row => return some (row, supplied.size)
        | none => .error .mismatch) := by
  -- The entries are written in two ways, which `rw` does not see in `checkRow` itself.
  rw [← entry_eq hm]
  rfl

theorem checkRow_eq {row : Array α → Int → Except (Fault α) (Option (Array α))}
    {entry : Vector α n → Fin n → Except (Fault α) (Option (Vector α n))} {i : Fin n}
    (hrow : row x.toArray i.val = (entry x i).map (Option.map Vector.toArray)) (step : α) :
    checkRow m row root step x i = do
      let supplied ← entry x i
      let differences ←
        forwardDifferences root step (fun z => do return (← (m.problem n).gradient z)[i]) x
      return supplied.map fun h => (DerivativeCheck.compare h differences, n) := by
  rw [checkRow_fits hm x, hrow]
  cases entry x i with
  | error e => rfl
  | ok supplied =>
    cases forwardDifferences root step (fun z => do return (← (m.problem n).gradient z)[i]) x with
    | error e => rfl
    | ok differences =>
      cases supplied with
      | none => rfl
      | some h =>
        rw [Except.map, except_ok_bind, except_ok_bind]
        dsimp only [Option.map_some]
        rw [compareAll_toArray, except_ok_bind, sized?_toArray, h.size_toArray]
        rfl

theorem checkRow_printed_eq {row : Array α → Int → Except (Fault α) (Option (Array α))}
    {entry : Vector α n → Fin n → Except (Fault α) (Option (Vector α n))} {i : Fin n}
    (hrow : row x.toArray i.val = (entry x i).map (Option.map Vector.toArray)) (step : α)
    (bad : Vector (Comparison α) n → List (Fin n)) (printed : Bool) :
    (do
      match ← checkRow m row root step x i with
      | none => return none
      | some (compared, size) =>
        if printed then checkPrinted size (bad compared)
        return some compared) = do
      let supplied ← entry x i
      let differences ←
        forwardDifferences root step (fun z => do return (← (m.problem n).gradient z)[i]) x
      return supplied.map (DerivativeCheck.compare · differences) := by
  rw [checkRow_eq hm x hrow]
  cases entry x i with
  | error e => rfl
  | ok supplied =>
    cases forwardDifferences root step (fun z => do return (← (m.problem n).gradient z)[i]) x with
    | error e => rfl
    | ok differences =>
      cases supplied with
      | none => rfl
      | some h =>
        cases printed with
        | false => rfl
        | true =>
          show (checkPrinted n (bad (DerivativeCheck.compare h differences)) >>= fun _ => _) = _
          rw [checkPrinted_of_le n.le_refl]
          rfl

theorem checkDerivatives_eq (step : Option α) (printed : Bool) :
    checkDerivatives m root x step tolerance printed =
      (BoxDescent.checkDerivatives (m.problem n) root x step tolerance).map fun r => ⟨n, r⟩ := by
  have hobjective : (fun z : Vector α n => m.objective z.toArray) = (m.problem n).objective := rfl
  unfold checkDerivatives BoxDescent.checkDerivatives DerivativeCheck.run
  rw [hm.gradient_eq x, hobjective]
  dsimp only
  cases (m.problem n).gradient x with
  | error e => rfl
  | ok supplied =>
    cases forwardDifferences root (step.getD (defaultStep root x)) (m.problem n).objective x with
    | error e => rfl
    | ok differences =>
      -- No entry stands for another one, so none that is bad is missing when they are printed.
      have hle : (DerivativeCheck.compare supplied differences).toArray.size ≤
          min supplied.toArray.size n := by
        simp
      rw [except_ok_bind, except_ok_bind]
      simp only [Except.map, except_ok_bind, compareAll_toArray, checkPrinted_of_le hle, ite_self]
      cases hrow : m.hessianRow with
      | none =>
        rw [Model.problem_hessianRow_eq_none hrow]
        exact congrArg Except.ok (result_toVector _ _ _)
      | some row =>
        obtain ⟨entry, hentry, heq⟩ := hm.exists_hessianRow hrow
        rw [hentry]
        show (Vector.ofFnM _ >>= fun rows => Except.ok _) = Except.map _ (Vector.ofFnM _ >>= _)
        refine (congrArg (fun f => Vector.ofFnM f >>= _) (funext fun i =>
          checkRow_printed_eq hm x (heq x i) _ _ printed)).trans ?_
        rw [except_map_bind]
        simp only [result_toVector]
        rfl

end Fits

end Input

end BoxDescent
