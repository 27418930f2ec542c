import BoxDescent.Proofs.Compact

/-!
This module contains which rows and columns of the factors are those of the identity. Resetting a list of
variables makes theirs so and leaves all other entries alone (`resetAll_eq`), so that neither the order of the
list nor its repetitions matter. An update does the same for all fixed variables.
-/

namespace BoxDescent.Factor

variable {α : Type} [Scalar α] {n : Nat} {f : Factor α n} {i : Fin n} {v : α}

/-- Row and column `i` are those of the identity, with `v` on the diagonal of `D`. -/
structure IsReset (f : Factor α n) (i : Fin n) (v : α) : Prop where
  row : ∀ k : Fin n, f.lower[i][k] = if i = k then 1 else 0
  column : ∀ k : Fin n, f.lower[k][i] = if k = i then 1 else 0
  diag : f.diag[i] = v

theorem resetAll_eq (f : Factor α n) (is : List (Fin n)) (v : α) : f.resetAll is v =
    { lower := .ofFn fun r c => if r ∈ is ∨ c ∈ is then if r = c then 1 else 0 else f.lower[r][c]
      diag := Vector.ofFn fun i => if i ∈ is then v else f.diag[i] } := by
  induction is generalizing f with
  | nil =>
    obtain ⟨lower, diag⟩ := f
    show Factor.mk lower diag = _
    congr 1
    . apply square_ext
      intro r c
      rw [Square.getElem_ofFn, if_neg (by simp)]
    . apply vector_ext
      intro i
      rw [getElem_vectorOfFn, if_neg List.not_mem_nil]
  | cons j is ih =>
    show (f.reset j v).resetAll is v = _
    rw [ih]
    unfold reset
    congr 1
    . apply square_ext
      intro r c
      rw [Square.getElem_ofFn, Square.getElem_ofFn, Square.getElem_ofFn]
      grind
    . apply vector_ext
      intro i
      rw [getElem_vectorOfFn, getElem_vectorOfFn, getElem_set]
      grind

section ResetAll

variable {is : List (Fin n)}

theorem diag_resetAll_of_not_mem (hi : i ∉ is) (v : α) : (f.resetAll is v).diag[i] = f.diag[i] := by
  rw [resetAll_eq, getElem_vectorOfFn, if_neg hi]

theorem IsReset.resetAll (h : f.IsReset i v) (hi : i ∉ is) (w : α) : (f.resetAll is w).IsReset i v where
  row := by
    intro k
    rw [resetAll_eq, Square.getElem_ofFn, h.row, ite_self]
  column := by
    intro k
    rw [resetAll_eq, Square.getElem_ofFn, h.column, ite_self]
  diag := by
    rw [diag_resetAll_of_not_mem hi]
    exact h.diag

theorem isReset_resetAll (f : Factor α n) (hi : i ∈ is) (v : α) : (f.resetAll is v).IsReset i v where
  row := by
    intro k
    rw [resetAll_eq, Square.getElem_ofFn, if_pos (Or.inl hi)]
  column := by
    intro k
    rw [resetAll_eq, Square.getElem_ofFn, if_pos (Or.inr hi)]
  diag := by
    rw [resetAll_eq, getElem_vectorOfFn, if_pos hi]

theorem resetAll_eq_of_mem_iff {js : List (Fin n)} (h : ∀ i, i ∈ is ↔ i ∈ js) (f : Factor α n) (v : α) :
    f.resetAll is v = f.resetAll js v := by
  rw [resetAll_eq, resetAll_eq]
  simp only [h]

theorem resetAll_resetAll (f : Factor α n) (is : List (Fin n)) (v : α) :
    (f.resetAll is v).resetAll is v = f.resetAll is v := by
  have happend : (f.resetAll is v).resetAll is v = f.resetAll (is ++ is) v := List.foldl_append.symm
  rw [happend]
  apply resetAll_eq_of_mem_iff
  intro i
  rw [List.mem_append, or_self]

end ResetAll

section Update

variable {fixed : Vector Bool n}

theorem takesOut_iff : TakesOut fixed f ↔ ∀ i : Fin n, fixed[i] = true → f.IsReset i 0 := by
  constructor
  . intro h i hi
    exact ⟨fun k => h.lower i k (Or.inl hi), fun k => h.lower k i (Or.inr hi), h.diag i hi⟩
  . intro h
    refine ⟨?_, fun i hi => (h i hi).diag⟩
    intro i j hor
    cases hor with
    | inl hi => exact (h i hi).row j
    | inr hj => exact (h j hj).column i

theorem Decrease.takesOut_step {zero coeff : α} {ps : Vector α n} {s s' : Decrease.State α n} {j : Fin n}
    (hs : TakesOut fixed s.out) (hj : fixed[j] = false)
    (h : Decrease.step f fixed zero coeff ps s j = .ok s') : TakesOut fixed s'.out := by
  obtain ⟨k, rfl⟩ := exists_freeAt hj
  unfold Decrease.step at h
  extract_lets at h
  split at h
  . cases h
  . split at h
    . cases h
    . cases h
      exact hs.writeColumn f k _ _ _

theorem Decrease.takesOut_foldlM {zero coeff : α} {ps : Vector α n} {js : List (Fin n)}
    (hjs : ∀ j ∈ js, fixed[j] = false) {s s' : Decrease.State α n} (hs : TakesOut fixed s.out)
    (h : js.foldlM (Decrease.step f fixed zero coeff ps) s = .ok s') : TakesOut fixed s'.out := by
  induction js generalizing s with
  | nil =>
    cases h
    exact hs
  | cons j js ih =>
    rw [List.foldlM_cons] at h
    cases hstep : Decrease.step f fixed zero coeff ps s j with
    | error e =>
      rw [hstep] at h
      cases h
    | ok t =>
      rw [hstep] at h
      exact ih (fun k hk => hjs k (List.mem_cons_of_mem j hk))
        (Decrease.takesOut_step hs (hjs j List.mem_cons_self) hstep) h

theorem takesOut_update {w : Vector α n} {coeff zero : α} {g : Factor α n}
    (h : f.update w coeff fixed zero = .ok g) : TakesOut fixed g := by
  unfold update at h
  split at h
  . cases h
    exact takesOut_restrict f
  . split at h
    . cases h
      exact takesOut_increase f w coeff
    . unfold decrease at h
      dsimp only at h
      cases hfold : (unmasked fixed).foldlM (Decrease.step f fixed zero coeff
          (Triangle.lower.solve f.lower w fixed)) _ with
      | error e =>
        rw [hfold] at h
        cases h
      | ok s =>
        rw [hfold] at h
        cases h
        exact Decrease.takesOut_foldlM (fun _ => mem_unmasked.mp) takesOut_blank hfold

end Update

end BoxDescent.Factor
