import Mathlib.Tactic.FieldSimp
import Mathlib.Tactic.LinearCombination
import BoxDescent.Factor.Update
import BoxDescent.Proofs.Exact.Factor

/-!
This module contains one column of a rank-one update in exact arithmetic: what a sweep has written so far
(`Written`), what is left of the update vector (`residual`), and the identity that a column adds to the sum
over the columns (`Telescopes`). Increases and decreases share it.
-/

namespace BoxDescent

open Extended

variable {n : Nat}

theorem foldl_invariant {ι σ : Type} {f : σ → ι → σ} (I : List ι → σ → Prop) (todo : List ι) :
    ∀ (done : List ι) (s : σ), I done s →
      (∀ (before : List ι) (i : ι) (after : List ι) (s : σ),
        done ++ todo = before ++ i :: after → I before s → I (before ++ [i]) (f s i)) →
      I (done ++ todo) (todo.foldl f s) := by
  induction todo with
  | nil =>
    intro done s hs _
    rw [List.append_nil]
    exact hs
  | cons i todo ih =>
    intro done s hs step
    have hcons : done ++ i :: todo = (done ++ [i]) ++ todo := by simp
    rw [List.foldl_cons, hcons]
    apply ih (done ++ [i]) (f s i) (step done i todo s rfl hs)
    intro before j after t ht
    exact step before j after t (hcons.trans ht)

theorem foldlM_ok {ι σ ε : Type} {f : σ → ι → Except ε σ} (I : List ι → σ → Prop) (todo : List ι) :
    ∀ (done : List ι) (s : σ), I done s →
      (∀ (before : List ι) (i : ι) (after : List ι) (s : σ),
        done ++ todo = before ++ i :: after → I before s →
          ∃ s', f s i = .ok s' ∧ I (before ++ [i]) s') →
      ∃ s', todo.foldlM f s = .ok s' ∧ I (done ++ todo) s' := by
  induction todo with
  | nil =>
    intro done s hs _
    rw [List.append_nil]
    exact ⟨s, rfl, hs⟩
  | cons i todo ih =>
    intro done s hs step
    have hcons : done ++ i :: todo = (done ++ [i]) ++ todo := by simp
    obtain ⟨s', hf, hs'⟩ := step done i todo s rfl hs
    rw [List.foldlM_cons, hf, hcons]
    apply ih (done ++ [i]) s' hs'
    intro before j after t ht
    exact step before j after t (hcons.trans ht)

section Split

variable {fixed : Vector Bool n} {before after : List (Fin n)} {j : Fin n}

theorem free_of_split (h : unmasked fixed = before ++ j :: after) : fixed[j] = false := by
  rw [← mem_unmasked, h]
  simp

theorem lt_of_mem_before (h : unmasked fixed = before ++ j :: after) {i : Fin n} (hi : i ∈ before) :
    i < j := by
  have hpair := pairwise_unmasked fixed
  rw [h, List.pairwise_append] at hpair
  exact hpair.2.2 i hi j List.mem_cons_self

theorem lt_of_mem_after (h : unmasked fixed = before ++ j :: after) {i : Fin n} (hi : i ∈ after) :
    j < i := by
  have hpair := pairwise_unmasked fixed
  rw [h, List.pairwise_append, List.pairwise_cons] at hpair
  exact hpair.2.1.1 i hi

theorem not_mem_of_lt (h : unmasked fixed = before ++ j :: after) {i : Fin n} (hi : j < i) :
    i ∉ before ++ [j] := by
  rw [List.mem_append, List.mem_singleton, not_or]
  constructor
  . intro hmem
    exact lt_asymm hi (lt_of_mem_before h hmem)
  . exact hi.ne'

theorem not_mem_before (h : unmasked fixed = before ++ j :: after) : j ∉ before := by
  intro hmem
  exact lt_irrefl j (lt_of_mem_before h hmem)

theorem lt_of_not_mem (h : unmasked fixed = before ++ j :: after) {i : Fin n}
    (hfree : fixed[i] = false) (hi : i ∉ before ++ [j]) : j < i := by
  rw [← mem_unmasked, h] at hfree
  simp only [List.mem_append, List.mem_cons, List.not_mem_nil, or_false] at hfree hi
  rw [not_or] at hi
  cases hfree with
  | inl hmem => exact absurd hmem hi.1
  | inr hmem => exact lt_of_mem_after h (hmem.resolve_left hi.2)

end Split

namespace Factor

def columnWritten (l : Fin n → Fin n → ℝ) (fixed : Vector Bool n) (l' : Fin n → Fin n → ℝ) (j : Fin n)
    (beta : ℝ) (w : Fin n → ℝ) (r c : Fin n) : ℝ :=
  if c = j then
    if r = j then 1
    else if j < r ∧ !fixed[r] then l r j + beta * w r
    else l' r c
  else l' r c

structure Written (fixed : Vector Bool n) (done : List (Fin n)) (l' : Fin n → Fin n → ℝ)
    (d' : Fin n → ℝ) : Prop where
  one : ∀ i : Fin n, i ∈ done ∨ fixed[i] = true → l' i i = 1
  above : ∀ i j, i < j → l' i j = 0
  masked : ∀ i j : Fin n, i ≠ j → fixed[i] = true ∨ fixed[j] = true → l' i j = 0
  diag : ∀ i : Fin n, i ∉ done → d' i = 0

variable {l l' : Fin n → Fin n → ℝ} {d d' : Fin n → ℝ} {fixed : Vector Bool n}

theorem blank_ofReals : (blank fixed : Factor Extended n) =
    ofReals (fun i j : Fin n => if i = j ∧ fixed[i] then 1 else 0) fun _ => 0 := by
  unfold blank ofReals
  congr 1
  . apply square_ext
    intro i j
    rw [Square.getElem_ofFn, getElem_squareOfReals, getElem_ofReals]
    split
    . rfl
    . rfl
  . rw [eq_ofReals_iff]
    intro i
    rw [getElem_replicate]
    rfl

theorem written_blank : Written fixed [] (fun i j => if i = j ∧ fixed[i] then 1 else 0)
    fun _ => 0 where
  one := by
    intro i hi
    rw [if_pos ⟨rfl, hi.resolve_left (List.not_mem_nil)⟩]
  above := by
    intro i j hij
    rw [if_neg fun h => hij.ne h.1]
  masked := by
    intro i j hij _
    rw [if_neg fun h => hij h.1]
  diag := fun _ _ => rfl

theorem writeColumn_ofReals {j : Fin n} {dj b : ℝ} {beta : Extended} {w : Vector Extended n}
    {wr : Fin n → ℝ}
    (hw : ∀ r : Fin n, j < r → fixed[r] = false → beta = .finite b ∧ w[r] = .finite (wr r)) :
    (ofReals l d).writeColumn fixed (ofReals l' d') j (.finite dj) beta w =
      ofReals (columnWritten l fixed l' j b wr) (Function.update d' j dj) := by
  unfold writeColumn ofReals
  congr 1
  . apply square_ext
    intro r c
    rw [Square.getElem_ofFn, getElem_squareOfReals, getElem_squareOfReals, getElem_squareOfReals,
      getElem_ofReals, getElem_ofReals, getElem_ofReals]
    unfold columnWritten
    split
    . split
      . rfl
      . split
        . next hr =>
          rw [Bool.not_eq_true'] at hr
          -- Only here do `beta` and `w` count, and so they need not be finite at the last column.
          obtain ⟨hbeta, hwr⟩ := hw r hr.1 hr.2
          rw [hbeta, hwr, finite_mul, finite_add]
        . rfl
    . rfl
  . exact ofReals_set d' j dj

theorem columnWritten_of_ne {j c : Fin n} (hc : c ≠ j) (beta : ℝ) (w : Fin n → ℝ) (r : Fin n) :
    columnWritten l fixed l' j beta w r c = l' r c := by
  unfold columnWritten
  rw [if_neg hc]

theorem Written.column {done : List (Fin n)} (h : Written fixed done l' d') {j : Fin n}
    (hj : fixed[j] = false) (dj beta : ℝ) (w : Fin n → ℝ) :
    Written fixed (done ++ [j]) (columnWritten l fixed l' j beta w) (Function.update d' j dj) where
  one := by
    intro i hi
    unfold columnWritten
    split
    . rfl
    . next hij =>
      apply h.one
      rw [List.mem_append, List.mem_singleton] at hi
      exact hi.imp_left fun hmem => hmem.resolve_right hij
  above := by
    intro r c hrc
    unfold columnWritten
    split
    . next hcj =>
      subst hcj
      rw [if_neg hrc.ne, if_neg fun hr => lt_asymm hrc hr.1]
      exact h.above r c hrc
    . exact h.above r c hrc
  masked := by
    intro r c hrc hfixed
    unfold columnWritten
    split
    . next hcj =>
      subst hcj
      have hr : fixed[r] = true := hfixed.resolve_right (Bool.eq_false_iff.mp hj)
      rw [if_neg hrc, if_neg]
      . exact h.masked r c hrc hfixed
      . rw [hr]
        exact fun h => Bool.false_ne_true h.2
    . exact h.masked r c hrc hfixed
  diag := by
    intro i hi
    rw [List.mem_append, List.mem_singleton, not_or] at hi
    rw [Function.update_of_ne hi.2]
    exact h.diag i hi.1

theorem Written.isUnitLower (h : Written fixed (unmasked fixed) l' d') : IsUnitLower l' where
  diag := by
    intro i
    apply h.one
    rw [mem_unmasked]
    cases fixed[i] with
    | false => exact Or.inl rfl
    | true => exact Or.inr rfl
  above := h.above

def residual (l : Fin n → Fin n → ℝ) (v ps : Fin n → ℝ) (done : List (Fin n)) (r : Fin n) : ℝ :=
  v r - (done.map fun i => l r i * ps i).sum

noncomputable def mass (d ps : Fin n → ℝ) (done : List (Fin n)) : ℝ :=
  (done.map fun i => ps i * ps i / d i).sum

noncomputable def ratio (coeff : ℝ) (d ps : Fin n → ℝ) (done : List (Fin n)) : ℝ :=
  1 + coeff * mass d ps done

structure IsReduced (l : Fin n → Fin n → ℝ) (v : Fin n → ℝ) (fixed : Vector Bool n)
    (ps : Fin n → ℝ) : Prop where
  onFixed : ∀ i : Fin n, fixed[i] = true → ps i = 0
  onFree : ∀ i : Fin n, fixed[i] = false → ∑ j, l i j * ps j = v i

section Residual

variable {v ps : Fin n → ℝ} {coeff : ℝ}

theorem exists_isReduced (fixed : Vector Bool n) (hl : IsUnitLower l) (v : Fin n → ℝ) :
    ∃ ps, Triangle.lower.solve (Square.ofReals l) (BoxDescent.ofReals v) fixed =
      BoxDescent.ofReals ps ∧ IsReduced l v fixed ps := by
  have htriangular : Triangle.lower.IsTriangular l := by
    intro i j hne hj
    rw [Triangle.mem_beside] at hj
    exact hl.above i j (lt_of_le_of_ne (not_lt.mp hj) hne.symm)
  obtain ⟨ps, hps, hfixed, hfree⟩ := Triangle.solve_ofReals fixed htriangular
    (fun j _ => by rw [hl.diag]; exact one_ne_zero) v
  exact ⟨ps, hps, hfixed, hfree⟩

theorem residual_concat (j r : Fin n) (done : List (Fin n)) :
    residual l v ps (done ++ [j]) r = residual l v ps done r - l r j * ps j := by
  unfold residual
  rw [List.map_append, List.sum_append, List.map_singleton, List.sum_singleton]
  ring

theorem mass_concat (j : Fin n) (done : List (Fin n)) :
    mass d ps (done ++ [j]) = mass d ps done + ps j * ps j / d j := by
  unfold mass
  rw [List.map_append, List.sum_append, List.map_singleton, List.sum_singleton]

theorem ratio_concat (coeff : ℝ) (d ps : Fin n → ℝ) (j : Fin n) (done : List (Fin n)) :
    ratio coeff d ps (done ++ [j]) = ratio coeff d ps done + coeff * (ps j * ps j / d j) := by
  unfold ratio
  rw [mass_concat]
  ring

namespace IsReduced

variable {before after : List (Fin n)} {j : Fin n}

theorem sum_list (h : IsReduced l v fixed ps) {r : Fin n} (hr : fixed[r] = false) :
    ((unmasked fixed).map fun i => l r i * ps i).sum = v r := by
  rw [sum_unmasked, ← h.onFree r hr]
  symm
  apply sum_eq_freeSet
  intro i hi
  rw [h.onFixed i hi, mul_zero]

theorem residual_eq_zero (h : IsReduced l v fixed ps) {r : Fin n} (hr : fixed[r] = false) :
    residual l v ps (unmasked fixed) r = 0 := by
  unfold residual
  rw [h.sum_list hr, sub_self]

theorem residual_eq (h : IsReduced l v fixed ps) (hl : IsUnitLower l)
    (hsplit : unmasked fixed = before ++ j :: after) : residual l v ps before j = ps j := by
  have hj := h.sum_list (free_of_split hsplit)
  have hafter : (after.map fun i => l j i * ps i).sum = 0 := by
    apply List.sum_eq_zero
    intro x hx
    obtain ⟨i, hi, rfl⟩ := List.mem_map.mp hx
    rw [hl.above j i (lt_of_mem_after hsplit hi), zero_mul]
  rw [hsplit, List.map_append, List.sum_append, List.map_cons, List.sum_cons, hafter, hl.diag] at hj
  unfold residual
  rw [← hj]
  ring

theorem residual_above (h : IsReduced l v fixed ps) (hl : IsUnitLower l)
    (hsplit : unmasked fixed = before ++ j :: after) {r : Fin n} (hr : fixed[r] = false)
    (hrj : r < j) : residual l v ps before r = 0 := by
  have hsum := h.sum_list hr
  have htail : ((j :: after).map fun i => l r i * ps i).sum = 0 := by
    apply List.sum_eq_zero
    intro x hx
    obtain ⟨i, hi, rfl⟩ := List.mem_map.mp hx
    have hri : r < i := by
      cases List.mem_cons.mp hi with
      | inl hij =>
        rw [hij]
        exact hrj
      | inr hmem => exact lt_trans hrj (lt_of_mem_after hsplit hmem)
    rw [hl.above r i hri, zero_mul]
  rw [hsplit, List.map_append, List.sum_append, htail, add_zero] at hsum
  unfold residual
  rw [hsum, sub_self]

end IsReduced

def Telescopes (l : Fin n → Fin n → ℝ) (d v ps : Fin n → ℝ) (coeff : ℝ) (fixed : Vector Bool n)
    (done : List (Fin n)) (l' : Fin n → Fin n → ℝ) (d' : Fin n → ℝ) : Prop :=
  ∀ r k : Fin n, fixed[r] = false → fixed[k] = false →
    (done.map fun j => l' r j * d' j * l' k j).sum = (done.map fun j => l r j * d j * l k j).sum +
      coeff * (v r * v k - residual l v ps done r * residual l v ps done k / ratio coeff d ps done)

theorem telescopes_nil : Telescopes l d v ps coeff fixed [] l' d' := by
  intro r k _ _
  unfold ratio mass residual
  simp

theorem column_identity {a b x y p dj t tau tau' : ℝ} (hd : dj ≠ 0) (htau : tau ≠ 0) (htau' : tau' ≠ 0)
    (h : tau' = tau + t * (p * p / dj)) :
    (a + t * p / (tau' * dj) * x) * (dj * tau' / tau) * (b + t * p / (tau' * dj) * y) =
      a * dj * b + t * ((x + a * p) * (y + b * p) / tau - x * y / tau') := by
  have hmul : tau' * dj = tau * dj + t * (p * p) := by
    rw [h]
    field_simp
  field_simp
  linear_combination (a * b * tau' * dj - t * x * y) * hmul

theorem columnWritten_self {before after : List (Fin n)} {j : Fin n} (hl : IsUnitLower l)
    (hps : IsReduced l v fixed ps) (hsplit : unmasked fixed = before ++ j :: after)
    (hw : Written fixed before l' d') {r : Fin n} (hr : fixed[r] = false) {beta : ℝ} :
    columnWritten l fixed l' j beta (residual l v ps (before ++ [j])) r j =
      l r j + beta * residual l v ps (before ++ [j]) r := by
  unfold columnWritten
  rw [if_pos rfl]
  -- One formula for the whole column: on the diagonal and above it nothing is left of the vector.
  rcases lt_trichotomy r j with hlt | heq | hgt
  . rw [if_neg hlt.ne, if_neg fun h => lt_asymm hlt h.1, hw.above r j hlt, residual_concat,
      hps.residual_above hl hsplit hr hlt, hl.above r j hlt]
    ring
  . subst heq
    rw [if_pos rfl, residual_concat, hps.residual_eq hl hsplit, hl.diag]
    ring
  . rw [if_neg hgt.ne', if_pos ⟨hgt, by rw [hr]; rfl⟩]

theorem Telescopes.column {before after : List (Fin n)} {j : Fin n} (hl : IsUnitLower l)
    (hps : IsReduced l v fixed ps) (hsplit : unmasked fixed = before ++ j :: after) (hd : d j ≠ 0)
    (hbefore : ratio coeff d ps before ≠ 0) (hafter : ratio coeff d ps (before ++ [j]) ≠ 0)
    (hw : Written fixed before l' d') (h : Telescopes l d v ps coeff fixed before l' d') :
    Telescopes l d v ps coeff fixed (before ++ [j])
      (columnWritten l fixed l' j (coeff * ps j / (ratio coeff d ps (before ++ [j]) * d j))
        (residual l v ps (before ++ [j])))
      (Function.update d' j
        (d j * ratio coeff d ps (before ++ [j]) / ratio coeff d ps before)) := by
  intro r k hr hk
  have hold : (before.map fun c =>
      columnWritten l fixed l' j (coeff * ps j / (ratio coeff d ps (before ++ [j]) * d j))
        (residual l v ps (before ++ [j])) r c *
      Function.update d' j (d j * ratio coeff d ps (before ++ [j]) / ratio coeff d ps before) c *
      columnWritten l fixed l' j (coeff * ps j / (ratio coeff d ps (before ++ [j]) * d j))
        (residual l v ps (before ++ [j])) k c).sum =
      (before.map fun c => l' r c * d' c * l' k c).sum := by
    congr 1
    apply List.map_congr_left
    intro c hc
    have hne : c ≠ j := (lt_of_mem_before hsplit hc).ne
    rw [columnWritten_of_ne hne, columnWritten_of_ne hne, Function.update_of_ne hne]
  rw [List.map_append, List.sum_append, hold, List.map_singleton, List.sum_singleton,
    columnWritten_self hl hps hsplit hw hr, columnWritten_self hl hps hsplit hw hk,
    Function.update_self, h r k hr hk, List.map_append, List.sum_append, List.map_singleton,
    List.sum_singleton]
  have hcolumn := column_identity (a := l r j) (b := l k j) (x := residual l v ps (before ++ [j]) r)
    (y := residual l v ps (before ++ [j]) k) hd hbefore hafter (ratio_concat _ _ _ j before)
  rw [hcolumn, residual_concat, residual_concat]
  ring

theorem Telescopes.product_eq (h : Telescopes l d v ps coeff fixed (unmasked fixed) l' d')
    (hps : IsReduced l v fixed ps) {r k : Fin n} (hr : fixed[r] = false) (hk : fixed[k] = false) :
    product l' d' (freeSet fixed) r k = product l d (freeSet fixed) r k + coeff * (v r * v k) := by
  have hsum := h r k hr hk
  rw [sum_unmasked, sum_unmasked, hps.residual_eq_zero hr, zero_mul, zero_div, sub_zero] at hsum
  exact hsum

theorem mass_nonneg (hd : ∀ i : Fin n, fixed[i] = false → 0 < d i) (ps : Fin n → ℝ)
    {done : List (Fin n)} (hdone : ∀ i ∈ done, fixed[i] = false) : 0 ≤ mass d ps done := by
  unfold mass
  apply List.sum_nonneg
  intro x hx
  obtain ⟨i, hi, rfl⟩ := List.mem_map.mp hx
  exact div_nonneg (mul_self_nonneg _) (hd i (hdone i hi)).le

theorem mass_append (done rest : List (Fin n)) :
    mass d ps (done ++ rest) = mass d ps done + mass d ps rest := by
  unfold mass
  rw [List.map_append, List.sum_append]

theorem ratio_pos_of_append (hd : ∀ i : Fin n, fixed[i] = false → 0 < d i)
    (hend : 0 < ratio coeff d ps (unmasked fixed)) (done rest : List (Fin n))
    (hsplit : unmasked fixed = done ++ rest) : 0 < ratio coeff d ps done := by
  have hfree : ∀ i ∈ done ++ rest, fixed[i] = false := by
    intro i hi
    rw [← hsplit] at hi
    exact mem_unmasked.mp hi
  have hdone := mass_nonneg hd ps fun i hi => hfree i (List.mem_append_left rest hi)
  have hrest := mass_nonneg hd ps fun i hi => hfree i (List.mem_append_right done hi)
  unfold ratio at hend ⊢
  rw [hsplit, mass_append] at hend
  -- With a positive coefficient it is above one anyway, with a negative one it falls along the list.
  cases le_total 0 coeff with
  | inl hc =>
    have := mul_nonneg hc hdone
    linarith
  | inr hc =>
    have := mul_nonneg (neg_nonneg.mpr hc) hrest
    linarith

/-- What the update of the factors by `coeff * v * vᵀ` gives. -/
structure Updated (l : Fin n → Fin n → ℝ) (d v : Fin n → ℝ) (coeff : ℝ) (fixed : Vector Bool n)
    (l' : Fin n → Fin n → ℝ) (d' : Fin n → ℝ) : Prop where
  unitLower : IsUnitLower l'
  masked : ∀ i j : Fin n, i ≠ j → fixed[i] = true ∨ fixed[j] = true → l' i j = 0
  positive : ∀ i : Fin n, fixed[i] = false → 0 < d' i
  diag : ∀ i : Fin n, fixed[i] = true → d' i = 0
  product_eq : ∀ r k : Fin n, fixed[r] = false → fixed[k] = false →
    product l' d' (freeSet fixed) r k = product l d (freeSet fixed) r k + coeff * (v r * v k)

def Swept (l : Fin n → Fin n → ℝ) (d v ps : Fin n → ℝ) (coeff : ℝ) (fixed : Vector Bool n)
    (done : List (Fin n)) (out : Factor Extended n) : Prop :=
  ∃ l' d', out = ofReals l' d' ∧ Written fixed done l' d' ∧ (∀ i ∈ done, 0 < d' i) ∧
    Telescopes l d v ps coeff fixed done l' d'

theorem swept_blank : Swept l d v ps coeff fixed [] (blank fixed) :=
  ⟨_, _, blank_ofReals, written_blank, nofun, telescopes_nil⟩

theorem Swept.column {before after : List (Fin n)} {j : Fin n} {out : Factor Extended n}
    {beta : Extended} {w : Vector Extended n} (hl : IsUnitLower l)
    (hd : ∀ i : Fin n, fixed[i] = false → 0 < d i) (hps : IsReduced l v fixed ps)
    (hend : 0 < ratio coeff d ps (unmasked fixed))
    (hsplit : unmasked fixed = before ++ j :: after) (h : Swept l d v ps coeff fixed before out)
    (hw : ∀ r : Fin n, j < r → fixed[r] = false →
      beta = .finite (coeff * ps j / (ratio coeff d ps (before ++ [j]) * d j)) ∧
        w[r] = .finite (residual l v ps (before ++ [j]) r)) :
    Swept l d v ps coeff fixed (before ++ [j])
      ((ofReals l d).writeColumn fixed out j
        (.finite (d j * ratio coeff d ps (before ++ [j]) / ratio coeff d ps before)) beta w) := by
  obtain ⟨l', d', rfl, hwritten, hpos, htelescopes⟩ := h
  have hj := free_of_split hsplit
  have hbefore := ratio_pos_of_append hd hend before (j :: after) hsplit
  have hafter : 0 < ratio coeff d ps (before ++ [j]) :=
    ratio_pos_of_append hd hend _ after (by rw [hsplit]; simp)
  refine ⟨_, _, writeColumn_ofReals hw, hwritten.column hj _ _ _,
    ?_, htelescopes.column hl hps hsplit (hd j hj).ne' hbefore.ne' hafter.ne' hwritten⟩
  intro i hi
  by_cases hij : i = j
  . subst hij
    rw [Function.update_self]
    exact div_pos (mul_pos (hd i hj) hafter) hbefore
  . rw [Function.update_of_ne hij]
    rw [List.mem_append, List.mem_singleton] at hi
    exact hpos i (hi.resolve_right hij)

theorem Swept.updated {out : Factor Extended n} (hps : IsReduced l v fixed ps)
    (h : Swept l d v ps coeff fixed (unmasked fixed) out) :
    ∃ l' d', out = ofReals l' d' ∧ Updated l d v coeff fixed l' d' := by
  obtain ⟨l', d', hout, hwritten, hpos, htelescopes⟩ := h
  refine ⟨l', d', hout, hwritten.isUnitLower, hwritten.masked, ?_, ?_, ?_⟩
  . intro i hi
    exact hpos i (mem_unmasked.mpr hi)
  . intro i hi
    apply hwritten.diag
    rw [mem_unmasked, hi]
    exact Bool.noConfusion
  . intro r k hr hk
    exact htelescopes.product_eq hps hr hk

theorem reduce_ofReals {before after : List (Fin n)} {j : Fin n} {w : Vector Extended n}
    (hsplit : unmasked fixed = before ++ j :: after)
    (hw : ∀ r : Fin n, fixed[r] = false → r ∉ before → w[r] = .finite (residual l v ps before r))
    {r : Fin n} (hr : fixed[r] = false) (hdone : r ∉ before ++ [j]) :
    ((ofReals l d).reduce fixed w j (.finite (ps j)))[r] =
      .finite (residual l v ps (before ++ [j]) r) := by
  have hjr := lt_of_not_mem hsplit hr hdone
  rw [List.mem_append, not_or] at hdone
  have hlower : (ofReals l d).lower = Square.ofReals l := rfl
  unfold reduce
  rw [getElem_vectorOfFn, if_pos ⟨hjr, by rw [hr]; rfl⟩, hw r hr hdone.1, hlower,
    getElem_squareOfReals, getElem_ofReals, finite_mul, finite_sub, residual_concat, mul_comm]

theorem reduced_start {r : Fin n} (hr : fixed[r] = false) :
    (Vector.ofFn fun i : Fin n => if fixed[i] then (0 : Extended) else (BoxDescent.ofReals v)[i])[r] =
      .finite (residual l v ps [] r) := by
  unfold residual
  rw [masked_ofReals, getElem_ofReals, if_neg (Bool.eq_false_iff.mp hr), List.map_nil, List.sum_nil,
    sub_zero]

end Residual

end Factor

end BoxDescent
