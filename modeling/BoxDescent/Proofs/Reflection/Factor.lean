import BoxDescent.Factor.Update
import BoxDescent.Proofs.Parallel
import BoxDescent.Proofs.Reflection.Sign

/-!
This module contains the factors of a matrix in reflected coordinates: both triangles change by signs and
the diagonal stays as it is. Every use of the factors commutes with the reflection: directions, updates, and
taking variables out.
-/

namespace BoxDescent

/-- Errors of one kind, for the same reason and at the same place. The numbers that are shown with it may
differ. -/
inductive Error.Alike {α : Type} : Error α → Error α → Prop where
  | same (e : Error α) : Alike e e
  | decrease (site : DecreaseSite) (index : Nat) (values values' : List (String × α)) :
    Alike (.breakdown (.decrease site index values)) (.breakdown (.decrease site index values'))
  | direction (stage : SolveStage) (index : Nat) (rhs rhs' diagonal : α) :
    Alike (.breakdown (.direction stage index rhs diagonal))
      (.breakdown (.direction stage index rhs' diagonal))
  | offBounds (index : Int) (value value' : α) (lower lower' upper upper' : Option α) :
    Alike (.breakdown (.offBounds index value lower upper))
      (.breakdown (.offBounds index value' lower' upper'))

variable {n : Nat} (σ : Fin n → Bool)

theorem Square.transpose_reflect (m : Square Extended n) :
    (reflect σ m).transpose = reflect σ m.transpose := by
  apply square_ext
  intro i j
  unfold transpose
  rw [getElem_ofFn, getElem_reflect, getElem_reflect, getElem_ofFn, Bool.xor_comm]

namespace Triangle

variable (t : Triangle) (m : Square Extended n) (b : Vector Extended n)

theorem unknown_reflect (x : Vector Extended n) (j : Fin n) :
    t.unknown (Square.reflect σ m) (reflect σ b) (reflect σ x) j = signed (σ j) (t.unknown m b x j) := by
  have hdot : dotOver (t.beside j) (Square.reflect σ m)[j] (reflect σ x) =
      signed (σ j) (dotOver (t.beside j) m[j] x) := by
    apply dotOver_signed
    intro k _
    rw [Square.getElem_reflect, getElem_reflect, signed_mul_signed, Bool.xor_assoc, Bool.xor_self,
      Bool.xor_false]
  unfold unknown
  rw [hdot, getElem_reflect, signed_sub, Square.getElem_reflect, Bool.xor_self, signed_false, signed_div]

theorem solve_reflect (skip : Vector Bool n) :
    t.solve (Square.reflect σ m) (reflect σ b) skip = reflect σ (t.solve m b skip) := by
  have hfold : ∀ (is : List (Fin n)) (x : Vector Extended n),
      is.foldl (fun x (j : Fin n) => x.set j (t.unknown (Square.reflect σ m) (reflect σ b) x j) j.isLt)
          (reflect σ x) =
        reflect σ (is.foldl (fun x (j : Fin n) => x.set j (t.unknown m b x j) j.isLt) x) := by
    intro is
    induction is with
    | nil => exact fun _ => rfl
    | cons j is ih =>
      intro x
      rw [List.foldl_cons, List.foldl_cons, unknown_reflect, reflect_set, ih]
  unfold solve
  rw [← hfold, reflect_replicate_zero]

end Triangle

namespace Factor

noncomputable def reflect (f : Factor Extended n) : Factor Extended n :=
  { lower := Square.reflect σ f.lower, diag := f.diag }

theorem factor_ext {f g : Factor Extended n} (hlower : ∀ i j : Fin n, f.lower[i][j] = g.lower[i][j])
    (hdiag : f.diag = g.diag) : f = g := by
  obtain ⟨l, d⟩ := f
  obtain ⟨l', d'⟩ := g
  rw [show l = l' from square_ext hlower, show d = d' from hdiag]

theorem identity_reflect : (identity : Factor Extended n).reflect σ = identity := by
  apply factor_ext
  . intro i j
    unfold reflect identity Square.identity
    rw [Square.getElem_reflect, Square.getElem_ofFn]
    split
    . next hij => rw [hij, Bool.xor_self, signed_false]
    . rw [signed_zero]
  . rfl

theorem blank_reflect (fixed : Vector Bool n) : (blank fixed).reflect σ = blank fixed := by
  apply factor_ext
  . intro i j
    unfold reflect blank
    rw [Square.getElem_reflect, Square.getElem_ofFn]
    split
    . next h => rw [h.1, Bool.xor_self, signed_false]
    . rw [signed_zero]
  . rfl

variable (f : Factor Extended n) (fixed : Vector Bool n)

theorem reset_reflect (i : Fin n) (value : Extended) :
    (f.reflect σ).reset i value = (f.reset i value).reflect σ := by
  apply factor_ext
  . intro r c
    unfold reflect reset
    rw [Square.getElem_reflect, Square.getElem_ofFn, Square.getElem_ofFn]
    split
    . split
      . next hrc => rw [hrc, Bool.xor_self, signed_false]
      . rw [signed_zero]
    . rw [Square.getElem_reflect]
  . rfl

theorem resetAll_reflect (is : List (Fin n)) (value : Extended) :
    (f.reflect σ).resetAll is value = (f.resetAll is value).reflect σ := by
  unfold resetAll
  induction is generalizing f with
  | nil => rfl
  | cons i is ih => rw [List.foldl_cons, List.foldl_cons, reset_reflect, ih]

theorem restrict_reflect : (f.reflect σ).restrict fixed = (f.restrict fixed).reflect σ := by
  apply factor_ext
  . intro i j
    unfold reflect restrict
    rw [Square.getElem_reflect, Square.getElem_ofFn, Square.getElem_ofFn]
    split
    . split
      . next hij => rw [hij, Bool.xor_self, signed_false]
      . rw [signed_zero]
    . rw [Square.getElem_reflect]
  . rfl

theorem masked_reflect (v : Vector Extended n) :
    (Vector.ofFn fun i : Fin n => if fixed[i] then 0 else (BoxDescent.reflect σ v)[i]) =
      BoxDescent.reflect σ (Vector.ofFn fun i : Fin n => if fixed[i] then 0 else v[i]) := by
  rw [← reflect_ofFn]
  congr 1
  funext i
  split
  . rw [signed_zero]
  . rw [getElem_reflect]

section Direction

theorem scaled_reflect : (f.reflect σ).scaled fixed = Square.reflect σ (f.scaled fixed) := by
  apply square_ext
  intro i j
  unfold reflect scaled
  rw [Square.getElem_reflect, Square.getElem_ofFn, Square.getElem_ofFn]
  split
  . rw [signed_zero]
  . rw [Square.getElem_reflect, signed_mul]

theorem firstNonFinite?_reflect (v : Vector Extended n) :
    firstNonFinite? (BoxDescent.reflect σ v) = firstNonFinite? v := by
  unfold firstNonFinite?
  simp only [getElem_reflect, isFinite_signed]

theorem direction_reflect (grad : Vector Extended n) :
    Corresponds Error.Alike (fun p p' => p' = BoxDescent.reflect σ p) (f.direction grad fixed)
      ((f.reflect σ).direction (BoxDescent.reflect σ grad) fixed) := by
  have hrhs : (Vector.ofFn fun i : Fin n => if fixed[i] then 0 else -(BoxDescent.reflect σ grad)[i]) =
      BoxDescent.reflect σ (Vector.ofFn fun i : Fin n => if fixed[i] then 0 else -grad[i]) := by
    rw [← reflect_ofFn]
    congr 1
    funext i
    split
    . rw [signed_zero]
    . rw [getElem_reflect, signed_neg]
  have hlower : (f.reflect σ).lower = Square.reflect σ f.lower := rfl
  unfold direction
  dsimp only
  rw [hrhs, scaled_reflect, Triangle.solve_reflect, firstNonFinite?_reflect, hlower,
    Square.transpose_reflect, Triangle.solve_reflect, firstNonFinite?_reflect]
  generalize Triangle.lower.solve (f.scaled fixed) _ fixed = y
  cases firstNonFinite? y with
  | some i => exact .error (.direction _ _ _ _ _)
  | none =>
    dsimp only
    cases firstNonFinite? (Triangle.upper.solve f.lower.transpose y fixed) with
    | some i =>
      dsimp only
      rw [Square.getElem_reflect, Bool.xor_self, signed_false]
      exact .error (.direction _ _ _ _ _)
    | none => exact .ok rfl

end Direction

section Update

theorem reduce_reflect (w : Vector Extended n) (j : Fin n) (p : Extended) :
    (f.reflect σ).reduce fixed (BoxDescent.reflect σ w) j (signed (σ j) p) =
      BoxDescent.reflect σ (f.reduce fixed w j p) := by
  unfold reduce reflect
  rw [← reflect_ofFn]
  congr 1
  funext i
  rw [getElem_reflect]
  split
  . rw [Square.getElem_reflect, signed_mul_signed, ← signed_sub]
    congr 2
    cases σ i <;> cases σ j <;> rfl
  . rfl

theorem writeColumn_reflect (out : Factor Extended n) (j : Fin n) (d beta : Extended)
    (w : Vector Extended n) :
    (f.reflect σ).writeColumn fixed (out.reflect σ) j d (signed (σ j) beta) (BoxDescent.reflect σ w) =
      (f.writeColumn fixed out j d beta w).reflect σ := by
  apply factor_ext
  . intro r c
    unfold reflect writeColumn
    rw [Square.getElem_reflect, Square.getElem_ofFn, Square.getElem_ofFn]
    split
    . next hc =>
      split
      . next hr => rw [hr, hc, Bool.xor_self, signed_false]
      . split
        . rw [Square.getElem_reflect, getElem_reflect, signed_mul_signed, hc, Bool.xor_comm (σ j) (σ r),
            signed_add]
        . rw [Square.getElem_reflect]
    . rw [Square.getElem_reflect]
  . rfl

variable (v : Vector Extended n) (coeff zero : Extended)

noncomputable def Increase.State.reflect (s : Increase.State Extended n) : Increase.State Extended n :=
  { rest := s.rest, reduced := BoxDescent.reflect σ s.reduced, out := s.out.reflect σ }

theorem Increase.step_reflect (s : Increase.State Extended n) (j : Fin n) :
    Increase.step (f.reflect σ) fixed (s.reflect σ) j = (Increase.step f fixed s j).reflect σ := by
  have hpivot : ∀ p : Extended, f.diag[j] + s.rest * signed (σ j) p * signed (σ j) p =
      f.diag[j] + s.rest * p * p := by
    intro p
    rw [mul_signed, mul_signed, signed_mul, signed_signed, Bool.xor_self, signed_false]
  unfold Increase.step State.reflect
  dsimp only
  rw [getElem_reflect, show (f.reflect σ).diag = f.diag from rfl, hpivot, signed_mul, signed_div,
    reduce_reflect, writeColumn_reflect]

theorem increase_reflect :
    (f.reflect σ).increase (BoxDescent.reflect σ v) coeff fixed =
      (f.increase v coeff fixed).reflect σ := by
  have hfold : ∀ (is : List (Fin n)) (s : Increase.State Extended n),
      is.foldl (Increase.step (f.reflect σ) fixed) (s.reflect σ) =
        (is.foldl (Increase.step f fixed) s).reflect σ := by
    intro is
    induction is with
    | nil => exact fun _ => rfl
    | cons j is ih =>
      intro s
      rw [List.foldl_cons, List.foldl_cons, Increase.step_reflect, ih]
  have hstart : ∀ (w : Vector Extended n) (out : Factor Extended n),
      { rest := coeff, reduced := BoxDescent.reflect σ w, out := out.reflect σ : Increase.State Extended n } =
        Increase.State.reflect σ { rest := coeff, reduced := w, out := out } := fun _ _ => rfl
  unfold increase
  dsimp only
  rw [masked_reflect, ← blank_reflect σ, hstart, hfold, blank_reflect σ]
  rfl

noncomputable def Decrease.State.reflect (s : Decrease.State Extended n) : Decrease.State Extended n :=
  { s with reduced := BoxDescent.reflect σ s.reduced, out := s.out.reflect σ }

theorem Decrease.step_reflect (ps : Vector Extended n) (s : Decrease.State Extended n) (j : Fin n) :
    Corresponds Error.Alike (fun s s' => s' = s.reflect σ) (Decrease.step f fixed zero coeff ps s j)
      (Decrease.step (f.reflect σ) fixed zero coeff (BoxDescent.reflect σ ps) (s.reflect σ) j) := by
  unfold Decrease.step
  dsimp only
  rw [getElem_reflect, show (f.reflect σ).diag = f.diag from rfl,
    show (s.reflect σ).sigma = s.sigma from rfl, show (s.reflect σ).rest = s.rest from rfl,
    show (s.reflect σ).alpha = s.alpha from rfl, signed_mul_self, mul_signed, signed_div,
    show (s.reflect σ).reduced = BoxDescent.reflect σ s.reduced from rfl,
    show (s.reflect σ).out = s.out.reflect σ from rfl, reduce_reflect, writeColumn_reflect]
  refine corresponds_ite ?_ (corresponds_ite ?_ ?_)
  . exact .error (Error.Alike.decrease _ _ _ _)
  . exact .error (Error.Alike.decrease _ _ _ _)
  . exact .ok rfl

theorem decrease_reflect :
    Corresponds Error.Alike (fun g g' => g' = g.reflect σ) (f.decrease v coeff fixed zero)
      ((f.reflect σ).decrease (BoxDescent.reflect σ v) coeff fixed zero) := by
  have hlower : (f.reflect σ).lower = Square.reflect σ f.lower := rfl
  have hdiag : (f.reflect σ).diag = f.diag := rfl
  unfold decrease
  dsimp only
  rw [masked_reflect, hlower, hdiag, Triangle.solve_reflect]
  simp only [getElem_reflect, signed_mul_self]
  refine Corresponds.bind (R := fun s s' => s' = Decrease.State.reflect σ s)
    (corresponds_foldlM ?_ _ _ ?_) ?_
  . rintro j _ s _ rfl
    exact Decrease.step_reflect σ f fixed coeff zero _ s j
  . unfold Decrease.State.reflect
    rw [blank_reflect]
  . rintro s _ rfl
    exact .ok rfl

theorem update_reflect :
    Corresponds Error.Alike (fun g g' => g' = g.reflect σ) (f.update v coeff fixed zero)
      ((f.reflect σ).update (BoxDescent.reflect σ v) coeff fixed zero) := by
  unfold update
  split
  . exact .ok (restrict_reflect σ f fixed)
  . split
    . exact .ok (increase_reflect σ f fixed v coeff)
    . exact decrease_reflect σ f fixed v coeff zero

end Update

end Factor

end BoxDescent
