import Mathlib.Order.Fin.Basic
import BoxDescent.Factor.Update
import BoxDescent.Proofs.Parallel
import BoxDescent.Proofs.Vector

/-!
This module contains the factors over the free variables alone: the fixed ones are deleted, and not only
masked. However the arithmetic rounds, an increase of these small factors is the increase of the large ones,
read at the free variables (`increase_compact`). So is each column of a decrease, as long as both sweeps agree
on which column is the last (`Decrease.step_compact`).
-/

namespace BoxDescent

variable {β : Type} {n : Nat} {fixed : Vector Bool n}

def allFree (n : Nat) : Vector Bool n :=
  Vector.replicate n false

theorem getElem_allFree (i : Fin n) : (allFree n)[i] = false :=
  getElem_replicate false i

theorem unmasked_allFree : unmasked (allFree n) = List.finRange n := by
  unfold unmasked
  rw [List.filter_eq_self]
  intro i _
  rw [getElem_allFree]
  rfl

def freeCount (fixed : Vector Bool n) : Nat :=
  (unmasked fixed).length

def freeAt (fixed : Vector Bool n) (k : Fin (freeCount fixed)) : Fin n :=
  (unmasked fixed).get k

theorem freeAt_free (k : Fin (freeCount fixed)) : fixed[freeAt fixed k] = false :=
  mem_unmasked.mp (List.get_mem _ k)

theorem exists_freeAt {i : Fin n} (hi : fixed[i] = false) : ∃ k, freeAt fixed k = i :=
  List.get_of_mem (mem_unmasked.mpr hi)

theorem strictMono_freeAt : StrictMono (freeAt fixed) := by
  intro i j hij
  exact List.pairwise_iff_getElem.mp (pairwise_unmasked fixed) i j i.isLt j.isLt hij

theorem freeAt_lt_iff {i j : Fin (freeCount fixed)} : freeAt fixed i < freeAt fixed j ↔ i < j :=
  strictMono_freeAt.lt_iff_lt

theorem freeAt_inj {i j : Fin (freeCount fixed)} : freeAt fixed i = freeAt fixed j ↔ i = j :=
  strictMono_freeAt.injective.eq_iff

theorem map_freeAt : (List.finRange (freeCount fixed)).map (freeAt fixed) = unmasked fixed :=
  List.map_get_finRange (unmasked fixed)

theorem isLast_of_freeAt {k : Fin (freeCount fixed)} (h : (freeAt fixed k).val + 1 = n) :
    k.val + 1 = freeCount fixed := by
  apply Classical.byContradiction
  intro hne
  have hk := k.isLt
  have hlt : freeAt fixed k < freeAt fixed ⟨k.val + 1, by omega⟩ :=
    freeAt_lt_iff.mpr (Fin.lt_def.mpr (Nat.lt_succ_self k.val))
  rw [Fin.lt_def] at hlt
  omega

theorem freeAt_isLast (hlast : ∀ j : Fin n, j.val + 1 = n → fixed[j] = false)
    {k : Fin (freeCount fixed)} (h : k.val + 1 = freeCount fixed) : (freeAt fixed k).val + 1 = n := by
  have hn := (freeAt fixed k).isLt
  obtain ⟨j, hj⟩ := exists_freeAt (hlast ⟨n - 1, by omega⟩ (Nat.sub_add_cancel (by omega)))
  have hle : j ≤ k := Fin.le_def.mpr (by omega)
  have hval := Fin.le_def.mp (strictMono_freeAt.monotone hle)
  rw [hj] at hval
  dsimp only at hval
  omega

def compact (fixed : Vector Bool n) (v : Vector β n) : Vector β (freeCount fixed) :=
  Vector.ofFn fun k => v[freeAt fixed k]

theorem getElem_compact (v : Vector β n) (k : Fin (freeCount fixed)) :
    (compact fixed v)[k] = v[freeAt fixed k] :=
  getElem_vectorOfFn _ k

theorem compact_ofFn (f : Fin n → β) :
    compact fixed (Vector.ofFn f) = Vector.ofFn fun k => f (freeAt fixed k) := by
  apply vector_ext
  intro k
  rw [getElem_compact, getElem_vectorOfFn, getElem_vectorOfFn]

theorem compact_set (v : Vector β n) (k : Fin (freeCount fixed)) (b : β) :
    compact fixed (v.set (freeAt fixed k) b (freeAt fixed k).isLt) = (compact fixed v).set k b k.isLt := by
  apply vector_ext
  intro i
  rw [getElem_compact, getElem_set, getElem_set, getElem_compact]
  simp only [freeAt_inj]

theorem compact_masked (b : β) (v : Vector β n) :
    compact fixed (Vector.ofFn fun i : Fin n => if fixed[i] then b else v[i]) =
      Vector.ofFn fun k : Fin (freeCount fixed) =>
        if (allFree (freeCount fixed))[k] then b else (compact fixed v)[k] := by
  rw [compact_ofFn]
  congr 1
  funext k
  rw [freeAt_free, getElem_allFree, getElem_compact]

inductive Error.Located {α : Type} (fixed : Vector Bool n) : Error α → Error α → Prop where
  | decrease (site : DecreaseSite) (k : Fin (freeCount fixed)) (values : List (String × α)) :
    Located fixed (.breakdown (.decrease site (freeAt fixed k) values))
      (.breakdown (.decrease site k values))

namespace Factor

variable {α : Type}

def compact (f : Factor α n) (fixed : Vector Bool n) : Factor α (freeCount fixed) :=
  { lower := .ofFn fun i j => f.lower[freeAt fixed i][freeAt fixed j]
    diag := BoxDescent.compact fixed f.diag }

theorem getElem_compact_lower (f : Factor α n) (i j : Fin (freeCount fixed)) :
    (f.compact fixed).lower[i][j] = f.lower[freeAt fixed i][freeAt fixed j] :=
  Square.getElem_ofFn _ i j

theorem getElem_compact_diag (f : Factor α n) (k : Fin (freeCount fixed)) :
    (f.compact fixed).diag[k] = f.diag[freeAt fixed k] :=
  getElem_compact f.diag k

theorem compact_mk (l : Fin n → Fin n → α) (d : Vector α n) :
    compact { lower := .ofFn l, diag := d } fixed =
      { lower := .ofFn fun i j => l (freeAt fixed i) (freeAt fixed j)
        diag := BoxDescent.compact fixed d } := by
  unfold compact
  congr 1
  apply square_ext
  intro i j
  rw [Square.getElem_ofFn, Square.getElem_ofFn, Square.getElem_ofFn]

variable [Scalar α]

/-- The rows and columns of the fixed variables are those of the identity, with zeros in `D`. -/
structure TakesOut (fixed : Vector Bool n) (f : Factor α n) : Prop where
  lower : ∀ i j : Fin n, fixed[i] = true ∨ fixed[j] = true → f.lower[i][j] = if i = j then 1 else 0
  diag : ∀ i : Fin n, fixed[i] = true → f.diag[i] = 0

def Agree (fixed : Vector Bool n) :
    Except (Error α) (Factor α n) → Except (Error α) (Factor α (freeCount fixed)) → Prop :=
  Corresponds (Error.Located fixed) fun g g' => TakesOut fixed g ∧ g' = g.compact fixed

def updateFree (f : Factor α n) (v : Vector α n) (coeff : α) (fixed : Vector Bool n) (zero : α) :
    Except (Error α) (Factor α (freeCount fixed)) :=
  (f.compact fixed).update (BoxDescent.compact fixed v) coeff (allFree (freeCount fixed)) zero

theorem takesOut_blank : TakesOut fixed (blank fixed : Factor α n) where
  lower := by
    intro i j hor
    unfold blank
    rw [Square.getElem_ofFn]
    by_cases hij : i = j
    . rw [if_pos hij, if_pos]
      rw [← hij, or_self] at hor
      exact ⟨hij, hor⟩
    . rw [if_neg hij, if_neg fun h => hij h.1]
  diag := fun i _ => getElem_replicate 0 i

theorem takesOut_restrict (f : Factor α n) : TakesOut fixed (f.restrict fixed) where
  lower := by
    intro i j hor
    unfold restrict
    rw [Square.getElem_ofFn, if_pos hor]
  diag := by
    intro i hi
    unfold restrict
    rw [getElem_vectorOfFn, if_pos hi]

theorem TakesOut.writeColumn {out : Factor α n} (h : TakesOut fixed out) (f : Factor α n)
    (k : Fin (freeCount fixed)) (d beta : α) (w : Vector α n) :
    TakesOut fixed (f.writeColumn fixed out (freeAt fixed k) d beta w) where
  lower := by
    intro r c hor
    unfold Factor.writeColumn
    rw [Square.getElem_ofFn]
    split
    . next hc =>
      -- A free column is only written at free rows.
      subst hc
      rw [freeAt_free] at hor
      have hr : fixed[r] = true := hor.resolve_right Bool.false_ne_true
      have hne : r ≠ freeAt fixed k := by
        intro heq
        rw [heq, freeAt_free] at hr
        exact Bool.false_ne_true hr
      rw [if_neg hne, if_neg, h.lower r _ (Or.inl hr), if_neg hne]
      rw [hr]
      exact fun h => Bool.false_ne_true h.2
    . exact h.lower r c hor
  diag := by
    intro i hi
    have hne : freeAt fixed k ≠ i := by
      intro heq
      rw [← heq, freeAt_free] at hi
      exact Bool.false_ne_true hi
    unfold Factor.writeColumn
    rw [getElem_set, if_neg hne]
    exact h.diag i hi

theorem blank_compact :
    (blank fixed : Factor α n).compact fixed = blank (allFree (freeCount fixed)) := by
  unfold blank
  rw [compact_mk]
  congr 1
  . apply square_ext
    intro i j
    rw [Square.getElem_ofFn, Square.getElem_ofFn, freeAt_free, getElem_allFree]
    simp only [freeAt_inj]
  . apply vector_ext
    intro k
    rw [getElem_compact, getElem_replicate, getElem_replicate]

theorem restrict_compact (f : Factor α n) :
    (f.restrict fixed).compact fixed = (f.compact fixed).restrict (allFree (freeCount fixed)) := by
  unfold restrict
  rw [compact_mk]
  congr 1
  . apply square_ext
    intro i j
    rw [Square.getElem_ofFn, Square.getElem_ofFn, freeAt_free, freeAt_free, getElem_allFree,
      getElem_allFree, getElem_compact_lower]
    simp only [freeAt_inj]
  . exact compact_masked 0 f.diag

theorem reduce_compact (f : Factor α n) (w : Vector α n) (k : Fin (freeCount fixed)) (p : α) :
    BoxDescent.compact fixed (f.reduce fixed w (freeAt fixed k) p) =
      (f.compact fixed).reduce (allFree (freeCount fixed)) (BoxDescent.compact fixed w) k p := by
  unfold reduce
  rw [compact_ofFn]
  congr 1
  funext i
  rw [freeAt_free, getElem_allFree, getElem_compact, getElem_compact_lower]
  simp only [freeAt_lt_iff]

theorem writeColumn_compact (f out : Factor α n) (k : Fin (freeCount fixed)) (d beta : α)
    (w : Vector α n) :
    (f.writeColumn fixed out (freeAt fixed k) d beta w).compact fixed =
      (f.compact fixed).writeColumn (allFree (freeCount fixed)) (out.compact fixed) k d beta
        (BoxDescent.compact fixed w) := by
  unfold writeColumn
  rw [compact_mk]
  congr 1
  . apply square_ext
    intro r c
    rw [Square.getElem_ofFn, Square.getElem_ofFn, freeAt_free, getElem_allFree, getElem_compact,
      getElem_compact_lower, getElem_compact_lower]
    simp only [freeAt_inj, freeAt_lt_iff]
  . exact compact_set out.diag k d

section Increase

variable (f : Factor α n) (v : Vector α n) (coeff : α)

def Increase.State.compact (s : Increase.State α n) (fixed : Vector Bool n) :
    Increase.State α (freeCount fixed) :=
  { rest := s.rest
    reduced := BoxDescent.compact fixed s.reduced
    out := s.out.compact fixed }

theorem Increase.step_compact (s : Increase.State α n) (k : Fin (freeCount fixed)) :
    (Increase.step f fixed s (freeAt fixed k)).compact fixed =
      Increase.step (f.compact fixed) (allFree (freeCount fixed)) (s.compact fixed) k := by
  unfold Increase.step State.compact
  dsimp only
  rw [writeColumn_compact, reduce_compact, getElem_compact, getElem_compact_diag]

theorem Increase.foldl_compact (ks : List (Fin (freeCount fixed))) {s : Increase.State α n}
    (hs : TakesOut fixed s.out) :
    TakesOut fixed (ks.foldl (fun s k => Increase.step f fixed s (freeAt fixed k)) s).out ∧
      (ks.foldl (fun s k => Increase.step f fixed s (freeAt fixed k)) s).compact fixed =
        ks.foldl (Increase.step (f.compact fixed) (allFree (freeCount fixed))) (s.compact fixed) := by
  induction ks generalizing s with
  | nil => exact ⟨hs, rfl⟩
  | cons k ks ih =>
    rw [List.foldl_cons, List.foldl_cons, ← Increase.step_compact]
    apply ih
    exact hs.writeColumn f k _ _ _

theorem takesOut_increase : TakesOut fixed (f.increase v coeff fixed) := by
  unfold increase
  dsimp only
  rw [← map_freeAt, List.foldl_map]
  refine (Increase.foldl_compact f _ ?_).1
  exact takesOut_blank

theorem increase_compact :
    (f.increase v coeff fixed).compact fixed =
      (f.compact fixed).increase (BoxDescent.compact fixed v) coeff (allFree (freeCount fixed)) := by
  unfold increase
  dsimp only
  rw [← map_freeAt, List.foldl_map, unmasked_allFree, ← compact_masked, ← blank_compact]
  refine congrArg (·.out) (Increase.foldl_compact f _ ?_).2
  exact takesOut_blank

end Increase

section Decrease

variable (f : Factor α n) (coeff zero : α)

def Decrease.State.compact (s : Decrease.State α n) (fixed : Vector Bool n) :
    Decrease.State α (freeCount fixed) :=
  { alpha := s.alpha
    sigma := s.sigma
    rest := s.rest
    reduced := BoxDescent.compact fixed s.reduced
    out := s.out.compact fixed }

theorem Decrease.step_compact (ps : Vector α n) {s : Decrease.State α n} (hs : TakesOut fixed s.out)
    {k : Fin (freeCount fixed)}
    (hlast : k.val + 1 = freeCount fixed → (freeAt fixed k).val + 1 = n) :
    Corresponds (Error.Located fixed) (fun s s' => TakesOut fixed s.out ∧ s' = s.compact fixed)
      (Decrease.step f fixed zero coeff ps s (freeAt fixed k))
      (Decrease.step (f.compact fixed) (allFree (freeCount fixed)) zero coeff
        (BoxDescent.compact fixed ps) (s.compact fixed) k) := by
  have hdecide : decide (k.val + 1 = freeCount fixed) = decide ((freeAt fixed k).val + 1 = n) :=
    decide_eq_decide.mpr ⟨hlast, isLast_of_freeAt⟩
  unfold Decrease.step
  dsimp only
  rw [hdecide, getElem_compact, getElem_compact_diag]
  refine corresponds_ite ?_ (corresponds_ite ?_ (.ok ⟨hs.writeColumn f k _ _ _, ?_⟩))
  . exact .error (.decrease _ k _)
  . exact .error (.decrease _ k _)
  . unfold State.compact
    dsimp only
    rw [writeColumn_compact, reduce_compact]

theorem Decrease.foldlM_compact (ps : Vector α n) {ks : List (Fin (freeCount fixed))}
    (hlast : ∀ k ∈ ks, k.val + 1 = freeCount fixed → (freeAt fixed k).val + 1 = n)
    {s : Decrease.State α n} (hs : TakesOut fixed s.out) :
    Corresponds (Error.Located fixed) (fun s s' => TakesOut fixed s.out ∧ s' = s.compact fixed)
      ((ks.map (freeAt fixed)).foldlM (Decrease.step f fixed zero coeff ps) s)
      (ks.foldlM (Decrease.step (f.compact fixed) (allFree (freeCount fixed)) zero coeff
        (BoxDescent.compact fixed ps)) (s.compact fixed)) := by
  rw [List.foldlM_map]
  apply corresponds_foldlM _ _ _ ⟨hs, rfl⟩
  rintro k hk s _ ⟨hs, rfl⟩
  exact Decrease.step_compact f coeff zero ps hs (hlast k hk)

theorem writeColumn_last {m : Nat} {k : Fin m} (hk : k.val + 1 = m) (mask : Vector Bool m)
    (f out : Factor α m) (d d' beta beta' : α) (w w' : Vector α m) :
    f.writeColumn mask out k d beta w =
      { f.writeColumn mask out k d' beta' w' with
        diag := (f.writeColumn mask out k d' beta' w').diag.set k d k.isLt } := by
  -- The last column has no entries below the diagonal.
  have hbelow : ∀ r : Fin m, ¬(k < r ∧ !mask[r]) := by
    intro r h
    have hr := r.isLt
    have hkr := Fin.lt_def.mp h.1
    omega
  unfold writeColumn
  dsimp only
  congr 1
  . apply square_ext
    intro r c
    rw [Square.getElem_ofFn, Square.getElem_ofFn, if_neg (hbelow r), if_neg (hbelow r)]
  . apply vector_ext
    intro i
    rw [getElem_set, getElem_set, getElem_set]
    split
    . rfl
    . rfl

end Decrease

end Factor

end BoxDescent
