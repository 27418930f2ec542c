import BoxDescent.Proofs.Compact
import BoxDescent.Proofs.Exact.Update

/-!
This module contains the updates of the factors over the free variables alone, in exact arithmetic. They are
those of the large factors, read at the free variables. Only a decrease still sees variables that are fixed
behind the last free one: it takes the column of that one for a column in the middle, where the floor applies
and where the scalars have to stay finite (`update_compact`).
-/

namespace BoxDescent

open Extended

variable {n : Nat} {fixed : Vector Bool n}

theorem sum_freeAt (fixed : Vector Bool n) (f : Fin n → ℝ) :
    ∑ k, f (freeAt fixed k) = ∑ j ∈ freeSet fixed, f j := by
  rw [← sum_unmasked, ← map_freeAt, List.map_map, ← sum_finRange]
  rfl

theorem freeSet_allFree : freeSet (allFree n) = Finset.univ := by
  ext i
  rw [mem_freeSet, getElem_allFree]
  simp

theorem compact_ofReals (v : Fin n → ℝ) :
    compact fixed (ofReals v) = ofReals fun k => v (freeAt fixed k) := by
  rw [eq_ofReals_iff]
  intro k
  rw [getElem_compact, getElem_ofReals]

theorem foldlM_concat {ι σ ε : Type} {f : σ → ι → Except ε σ} {is : List ι} {s t : σ} (i : ι)
    (h : is.foldlM f s = .ok t) : (is ++ [i]).foldlM f s = f t i := by
  rw [List.foldlM_append, h]
  show [i].foldlM f t = f t i
  rw [List.foldlM_cons]
  exact bind_pure (f t i)

theorem foldlM_concat_of_error {ι σ ε : Type} {f : σ → ι → Except ε σ} {is : List ι} {s : σ} {e : ε}
    (i : ι) (h : is.foldlM f s = .error e) : (is ++ [i]).foldlM f s = .error e := by
  rw [List.foldlM_append, h]
  rfl

theorem finRange_eq_append {m : Nat} {k : Fin m} (hk : k.val + 1 = m) :
    ∃ ks, List.finRange m = ks ++ [k] ∧ ∀ i ∈ ks, i.val + 1 ≠ m := by
  cases m with
  | zero => exact k.elim0
  | succ m =>
    have hlast : k = Fin.last m := Fin.ext (Nat.succ.inj hk)
    subst hlast
    refine ⟨_, List.finRange_succ_last, ?_⟩
    intro i hi
    obtain ⟨j, _, rfl⟩ := List.mem_map.mp hi
    have hj := j.isLt
    rw [Fin.val_castSucc]
    omega

theorem unmasked_eq_append {ks : List (Fin (freeCount fixed))} {k : Fin (freeCount fixed)}
    (hks : List.finRange (freeCount fixed) = ks ++ [k]) :
    unmasked fixed = ks.map (freeAt fixed) ++ [freeAt fixed k] := by
  rw [← map_freeAt, hks, List.map_append, List.map_singleton]

namespace Factor

variable {l : Fin n → Fin n → ℝ} {d v ps : Fin n → ℝ} {coeff zero : ℝ}

theorem factor_compact_ofReals : (ofReals l d).compact fixed =
    ofReals (fun i j => l (freeAt fixed i) (freeAt fixed j)) fun k => d (freeAt fixed k) := by
  unfold compact ofReals
  dsimp only
  congr 1
  . apply square_ext
    intro i j
    rw [Square.getElem_ofFn, getElem_squareOfReals, getElem_squareOfReals, getElem_ofReals,
      getElem_ofReals]
  . exact compact_ofReals d

theorem IsUnitLower.compact (hl : IsUnitLower l) (fixed : Vector Bool n) :
    IsUnitLower fun i j => l (freeAt fixed i) (freeAt fixed j) where
  diag := fun i => hl.diag (freeAt fixed i)
  above := fun _ _ hij => hl.above _ _ (freeAt_lt_iff.mpr hij)

theorem IsReduced.sum_compact (h : IsReduced l v fixed ps) (i : Fin (freeCount fixed)) :
    ∑ k, l (freeAt fixed i) (freeAt fixed k) * ps (freeAt fixed k) = v (freeAt fixed i) := by
  rw [sum_freeAt fixed fun j => l (freeAt fixed i) j * ps j, ← sum_unmasked]
  exact h.sum_list (freeAt_free i)

theorem IsReduced.solve_compact (h : IsReduced l v fixed ps) (hl : IsUnitLower l) :
    Triangle.lower.solve (Square.ofReals fun i j => l (freeAt fixed i) (freeAt fixed j))
        (BoxDescent.ofReals fun k => v (freeAt fixed k)) (allFree (freeCount fixed)) =
      BoxDescent.ofReals fun k => ps (freeAt fixed k) := by
  obtain ⟨qs, hsolve, hqs⟩ := exists_isReduced (allFree (freeCount fixed)) (hl.compact fixed)
    fun k => v (freeAt fixed k)
  rw [hsolve, ofReals_inj]
  funext k
  apply hqs.eq_of_solves (hl.compact fixed)
  . intro i _
    rw [freeSet_allFree]
    exact h.sum_compact i
  . rw [freeSet_allFree]
    exact Finset.mem_univ k

theorem mass_compact (d ps : Fin n → ℝ) (fixed : Vector Bool n) :
    mass (fun k => d (freeAt fixed k)) (fun k => ps (freeAt fixed k))
      (unmasked (allFree (freeCount fixed))) = mass d ps (unmasked fixed) := by
  unfold mass
  rw [unmasked_allFree, ← map_freeAt, List.map_map]
  rfl

namespace Decrease

theorem initial_compact : (initial d v ps coeff fixed).compact fixed =
    initial (fun k => d (freeAt fixed k)) (fun k => v (freeAt fixed k))
      (fun k => ps (freeAt fixed k)) coeff (allFree (freeCount fixed)) := by
  unfold initial State.compact ratio
  rw [compact_masked, compact_ofReals, blank_compact, mass_compact]

theorem takesOut_initial (d v ps : Fin n → ℝ) (coeff : ℝ) (fixed : Vector Bool n) :
    TakesOut fixed (initial d v ps coeff fixed).out :=
  takesOut_blank

end Decrease

theorem decrease_compact_eq (hl : IsUnitLower l) (hd : ∀ i : Fin n, fixed[i] = false → 0 < d i)
    (hps : IsReduced l v fixed ps) (zero : Extended) :
    ((ofReals l d).compact fixed).decrease (BoxDescent.compact fixed (BoxDescent.ofReals v))
        (.finite coeff) (allFree (freeCount fixed)) zero =
      ((List.finRange (freeCount fixed)).foldlM
        (Decrease.step ((ofReals l d).compact fixed) (allFree (freeCount fixed)) zero (.finite coeff)
          (BoxDescent.compact fixed (BoxDescent.ofReals ps)))
        ((Decrease.initial d v ps coeff fixed).compact fixed)).map (·.out) := by
  rw [factor_compact_ofReals, compact_ofReals, compact_ofReals, Decrease.initial_compact,
    Decrease.decrease_eq (fun k _ => hd _ (freeAt_free k)) (hps.solve_compact hl), unmasked_allFree]

theorem decrease_compact (hl : IsUnitLower l) (hd : ∀ i : Fin n, fixed[i] = false → 0 < d i)
    (hlast : ∀ k : Fin (freeCount fixed),
      k.val + 1 = freeCount fixed → (freeAt fixed k).val + 1 = n) (v : Fin n → ℝ) (coeff : ℝ)
    (zero : Extended) :
    Agree fixed ((ofReals l d).decrease (BoxDescent.ofReals v) (.finite coeff) fixed zero)
      (((ofReals l d).compact fixed).decrease (BoxDescent.compact fixed (BoxDescent.ofReals v))
        (.finite coeff) (allFree (freeCount fixed)) zero) := by
  obtain ⟨ps, hsolve, hps⟩ := exists_isReduced fixed hl v
  rw [decrease_compact_eq hl hd hps, Decrease.decrease_eq hd hsolve, ← map_freeAt]
  apply Corresponds.map (Decrease.foldlM_compact _ _ _ _ (fun k _ => hlast k)
    (Decrease.takesOut_initial d v ps coeff fixed))
  rintro s _ ⟨hs, rfl⟩
  exact ⟨hs, rfl⟩

namespace Decrease

theorem factor_last (hzero : 0 ≤ zero) (sigma q : ℝ) :
    factor zero sigma q q false = factor zero sigma q q true + zero := by
  unfold factor floored
  rw [sub_self, max_self, mul_zero, if_pos ⟨rfl, hzero⟩, if_neg fun h => Bool.false_ne_true h.1, add_zero]

theorem factor_zero (sigma rest : ℝ) {q : ℝ} (hq : 0 ≤ q) :
    factor 0 sigma rest q false = factor 0 sigma rest q true := by
  have hterm := term_nonneg sigma rest hq
  unfold factor
  rw [floored_zero hterm, floored_zero hterm]

theorem exists_at_of_floor {before after : List (Fin n)} {j : Fin n} (l : Fin n → Fin n → ℝ)
    (v ps : Fin n → ℝ) (coeff : ℝ) (hzero : 0 < zero)
    (hd : ∀ i : Fin n, fixed[i] = false → 0 < d i) (hsplit : unmasked fixed = before ++ j :: after) :
    ∃ s alpha sigma, before.foldlM (Decrease.step (ofReals l d) fixed (.finite zero) (.finite coeff)
        (BoxDescent.ofReals ps)) (initial d v ps coeff fixed) = .ok s ∧
      At s alpha sigma (mass d ps (unmasked fixed) - mass d ps before) := by
  obtain ⟨s, hfold, hs⟩ := foldlM_ok (f := Decrease.step (ofReals l d) fixed (.finite zero)
      (.finite coeff) (BoxDescent.ofReals ps))
    (fun done s => (∀ i ∈ done, isLast i = false) → ∃ alpha sigma,
      At s alpha sigma (mass d ps (unmasked fixed) - mass d ps done))
    before [] (initial d v ps coeff fixed)
    (by
      intro _
      refine ⟨_, _, rfl, rfl, ?_⟩
      have hnil : mass d ps [] = 0 := rfl
      rw [hnil, sub_zero]
      rfl)
    (by
      intro done i todo s hbefore hs
      rw [List.nil_append] at hbefore
      have hsplit' : unmasked fixed = done ++ i :: (todo ++ j :: after) := by
        rw [hsplit, hbefore, List.append_assoc, List.cons_append]
      obtain ⟨alpha, sigma, hat⟩ := hs (not_last_of_mem hsplit')
      obtain ⟨t, beta, hstep, hrest, _, _, hscalars⟩ := step_ofReals ps fixed zero (l := l)
        (c := .finite coeff) hat.alpha hat.sigma hat.rest (hd i (free_of_split hsplit'))
        fun _ => passes_of_floor hzero sigma _ _
      refine ⟨t, hstep, ?_⟩
      intro hlast
      obtain ⟨_, halpha, hsigma⟩ := hscalars (hlast i (by simp))
      refine ⟨_, _, halpha, hsigma, ?_⟩
      rw [hrest, max_eq_left (sub_nonneg.mpr (le_mass_of_split hd hsplit')), mass_concat, sub_sub])
  obtain ⟨alpha, sigma, hat⟩ := hs (not_last_of_mem hsplit)
  exact ⟨s, alpha, sigma, hfold, hat⟩

theorem exists_at_of_ok (ps : Fin n → ℝ) (fixed : Vector Bool n) (zero : ℝ) (c : Extended)
    {is : List (Fin n)} (his : ∀ i ∈ is, 0 < d i ∧ isLast i = false) :
    ∀ (s : Decrease.State Extended n) {alpha sigma rest : ℝ} {t : Decrease.State Extended n},
      At s alpha sigma rest → is.foldlM (Decrease.step (ofReals l d) fixed (.finite zero) c
        (BoxDescent.ofReals ps)) s = .ok t → ∃ alpha sigma rest, At t alpha sigma rest := by
  induction is with
  | nil =>
    intro s alpha sigma rest t hat hfold
    cases hfold
    exact ⟨_, _, _, hat⟩
  | cons i is ih =>
    intro s alpha sigma rest t hat hfold
    obtain ⟨hd, hlast⟩ := his i List.mem_cons_self
    rw [List.foldlM_cons] at hfold
    by_cases hpasses : Passes zero sigma rest (ps i * ps i / d i)
    . obtain ⟨t', beta, hstep, hrest, _, _, hscalars⟩ := step_ofReals ps fixed zero (l := l) (c := c)
        hat.alpha hat.sigma hat.rest hd fun _ => hpasses
      obtain ⟨_, halpha, hsigma⟩ := hscalars hlast
      rw [hstep] at hfold
      exact ih (fun j hj => his j (List.mem_cons_of_mem i hj)) t' ⟨halpha, hsigma, hrest⟩ hfold
    . obtain ⟨values, hstep⟩ := step_breaks ps fixed zero (l := l) (c := c) hat.alpha hat.sigma hat.rest
        hd hlast hpasses
      rw [hstep] at hfold
      cases hfold

end Decrease

section Last

variable {k : Fin (freeCount fixed)} (hk : k.val + 1 = freeCount fixed)
  (hbehind : (freeAt fixed k).val + 1 ≠ n)
include hk hbehind

namespace Decrease

omit hbehind in
theorem step_compact_ok {s : Decrease.State Extended n} {alpha sigma rest q : ℝ}
    (l : Fin n → Fin n → ℝ) (zero : ℝ) (c : Extended) (hd : 0 < d (freeAt fixed k))
    (hq : ps (freeAt fixed k) * ps (freeAt fixed k) / d (freeAt fixed k) = q)
    (hat : At s alpha sigma rest) :
    ∃ t beta, Decrease.step ((ofReals l d).compact fixed) (allFree (freeCount fixed)) (.finite zero) c
        (BoxDescent.compact fixed (BoxDescent.ofReals ps)) (s.compact fixed) k = .ok t ∧
      t.out = ((ofReals l d).compact fixed).writeColumn (allFree (freeCount fixed)) (s.out.compact fixed)
        k (.finite (factor zero sigma rest q true * d (freeAt fixed k))) beta t.reduced := by
  have hlast : isLast k = true := decide_eq_true hk
  obtain ⟨t, beta, hstep, _, _, hout, _⟩ := step_ofReals (fun k => ps (freeAt fixed k))
    (allFree (freeCount fixed)) zero (s := s.compact fixed) (d := fun k => d (freeAt fixed k)) (j := k)
    (l := fun i j => l (freeAt fixed i) (freeAt fixed j)) (c := c) hat.alpha hat.sigma hat.rest hd
    fun h => absurd (hlast.symm.trans h) Bool.true_eq_false.mp
  rw [hlast, hq] at hout
  rw [factor_compact_ofReals, compact_ofReals]
  exact ⟨t, beta, hstep, hout⟩

theorem step_compact_last {s : Decrease.State Extended n} {alpha sigma rest q : ℝ} (c : Extended)
    (hd : 0 < d (freeAt fixed k))
    (hq : ps (freeAt fixed k) * ps (freeAt fixed k) / d (freeAt fixed k) = q)
    (hs : TakesOut fixed s.out) (hat : At s alpha sigma rest) (hpasses : Passes zero sigma rest q) :
    ∃ t t', Decrease.step (ofReals l d) fixed (.finite zero) c (BoxDescent.ofReals ps) s
        (freeAt fixed k) = .ok t ∧
      Decrease.step ((ofReals l d).compact fixed) (allFree (freeCount fixed)) (.finite zero) c
        (BoxDescent.compact fixed (BoxDescent.ofReals ps)) (s.compact fixed) k = .ok t' ∧
      TakesOut fixed t.out ∧
      t'.out.diag[k] = .finite (factor zero sigma rest q true * d (freeAt fixed k)) ∧
      t.out.compact fixed = { t'.out with
        diag := t'.out.diag.set k (.finite (factor zero sigma rest q false * d (freeAt fixed k)))
          k.isLt } := by
  have hlast : isLast (freeAt fixed k) = false := decide_eq_false hbehind
  obtain ⟨t, beta, hstep, _, _, hout, _⟩ := step_ofReals ps fixed zero (l := l) (c := c) hat.alpha
    hat.sigma hat.rest hd fun _ => by
      rw [hq]
      exact hpasses
  obtain ⟨t', beta', hstep', hout'⟩ := step_compact_ok hk l zero c hd hq hat
  rw [hlast, hq] at hout
  refine ⟨t, t', hstep, hstep', ?_, ?_, ?_⟩
  . rw [hout]
    exact hs.writeColumn _ _ _ _ _
  . rw [hout']
    unfold writeColumn
    rw [getElem_set, if_pos rfl]
  . rw [hout, writeColumn_compact, hout']
    exact writeColumn_last hk _ _ _ _ _ _ _ _ _

theorem step_compact_exact {s : Decrease.State Extended n} {alpha sigma rest : ℝ}
    (l : Fin n → Fin n → ℝ) (ps : Fin n → ℝ) (c : Extended) (hd : 0 < d (freeAt fixed k))
    (hs : TakesOut fixed s.out) (hat : At s alpha sigma rest) :
    (∃ t t', Decrease.step (ofReals l d) fixed 0 c (BoxDescent.ofReals ps) s (freeAt fixed k) = .ok t ∧
      Decrease.step ((ofReals l d).compact fixed) (allFree (freeCount fixed)) 0 c
        (BoxDescent.compact fixed (BoxDescent.ofReals ps)) (s.compact fixed) k = .ok t' ∧
      TakesOut fixed t.out ∧ t'.out = t.out.compact fixed) ∨
    (∃ values, Decrease.step (ofReals l d) fixed 0 c (BoxDescent.ofReals ps) s (freeAt fixed k) =
      .error (.breakdown (.decrease .scalar (freeAt fixed k) values))) ∧
    ∃ t', Decrease.step ((ofReals l d).compact fixed) (allFree (freeCount fixed)) 0 c
      (BoxDescent.compact fixed (BoxDescent.ofReals ps)) (s.compact fixed) k = .ok t' := by
  by_cases hpasses : Passes 0 sigma rest
      (ps (freeAt fixed k) * ps (freeAt fixed k) / d (freeAt fixed k))
  . left
    obtain ⟨t, t', hstep, hstep', hout, hdiag, hlast⟩ :=
      step_compact_last hk hbehind (l := l) c hd rfl hs hat hpasses
    have hset : t'.out.diag.set k t'.out.diag[k] k.isLt = t'.out.diag := Vector.set_getElem_self k.isLt
    rw [factor_zero _ _ (div_nonneg (mul_self_nonneg _) hd.le), ← hdiag, hset] at hlast
    exact ⟨t, t', hstep, hstep', hout, hlast.symm⟩
  . right
    obtain ⟨t', _, hstep', _⟩ := step_compact_ok hk l 0 c hd rfl hat
    exact ⟨step_breaks ps fixed 0 hat.alpha hat.sigma hat.rest hd (decide_eq_false hbehind) hpasses, t',
      hstep'⟩

end Decrease

theorem decrease_compact_floored (hl : IsUnitLower l) (hd : ∀ i : Fin n, fixed[i] = false → 0 < d i)
    (v : Fin n → ℝ) (coeff : ℝ) (hzero : 0 < zero) :
    ∃ g g', (ofReals l d).decrease (BoxDescent.ofReals v) (.finite coeff) fixed (.finite zero) =
        .ok g ∧
      ((ofReals l d).compact fixed).decrease (BoxDescent.compact fixed (BoxDescent.ofReals v))
        (.finite coeff) (allFree (freeCount fixed)) (.finite zero) = .ok g' ∧
      TakesOut fixed g ∧ g.compact fixed =
        { g' with diag := g'.diag.set k (g'.diag[k] + .finite (zero * d (freeAt fixed k))) k.isLt } := by
  obtain ⟨ps, hsolve, hps⟩ := exists_isReduced fixed hl v
  obtain ⟨ks, hks, hbefore⟩ := finRange_eq_append hk
  have hsplit := unmasked_eq_append hks
  obtain ⟨s, alpha, sigma, hfold, hat⟩ := Decrease.exists_at_of_floor l v ps coeff hzero hd hsplit
  have hcommon := Decrease.foldlM_compact (ofReals l d) (.finite coeff) (.finite zero)
    (BoxDescent.ofReals ps) (fun i hi h => absurd h (hbefore i hi))
    (Decrease.takesOut_initial d v ps coeff fixed)
  rw [hfold] at hcommon
  obtain ⟨_, hfold', hs, rfl⟩ := hcommon.exists_of_ok
  -- Nothing is left of the mass but what belongs to the last free column.
  rw [hsplit, mass_concat, add_sub_cancel_left] at hat
  obtain ⟨t, t', hstep, hstep', hout, hdiag, hlast⟩ := Decrease.step_compact_last hk hbehind (l := l)
    (.finite coeff) (hd _ (freeAt_free k)) rfl hs hat (Decrease.passes_of_floor hzero sigma _ _)
  refine ⟨t.out, t'.out, ?_, ?_, hout, ?_⟩
  . rw [Decrease.decrease_eq hd hsolve, hsplit, foldlM_concat _ hfold, hstep]
    rfl
  . rw [decrease_compact_eq hl hd hps, hks, foldlM_concat _ hfold', hstep']
    rfl
  . rw [hlast, hdiag, finite_add, ← add_mul, Decrease.factor_last hzero.le]

theorem decrease_compact_exact (hl : IsUnitLower l) (hd : ∀ i : Fin n, fixed[i] = false → 0 < d i)
    (v : Fin n → ℝ) (coeff : ℝ) :
    Agree fixed ((ofReals l d).decrease (BoxDescent.ofReals v) (.finite coeff) fixed 0)
        (((ofReals l d).compact fixed).decrease (BoxDescent.compact fixed (BoxDescent.ofReals v))
          (.finite coeff) (allFree (freeCount fixed)) 0) ∨
      (∃ values, (ofReals l d).decrease (BoxDescent.ofReals v) (.finite coeff) fixed 0 =
        .error (.breakdown (.decrease .scalar (freeAt fixed k) values))) ∧
      ∃ g', ((ofReals l d).compact fixed).decrease (BoxDescent.compact fixed (BoxDescent.ofReals v))
        (.finite coeff) (allFree (freeCount fixed)) 0 = .ok g' := by
  obtain ⟨ps, hsolve, hps⟩ := exists_isReduced fixed hl v
  obtain ⟨ks, hks, hbefore⟩ := finRange_eq_append hk
  have hsplit := unmasked_eq_append hks
  have hcommon := Decrease.foldlM_compact (ofReals l d) (.finite coeff) 0 (BoxDescent.ofReals ps)
    (fun i hi h => absurd h (hbefore i hi))
    (Decrease.takesOut_initial d v ps coeff fixed)
  rw [Decrease.decrease_eq hd hsolve, decrease_compact_eq hl hd hps, hks, hsplit]
  cases hfold : (ks.map (freeAt fixed)).foldlM (Decrease.step (ofReals l d) fixed 0 (.finite coeff)
      (BoxDescent.ofReals ps)) (Decrease.initial d v ps coeff fixed) with
  | error e =>
    rw [hfold] at hcommon
    obtain ⟨e', hfold', he⟩ := hcommon.exists_of_error
    rw [foldlM_concat_of_error _ hfold, foldlM_concat_of_error _ hfold']
    exact Or.inl (.error he)
  | ok s =>
    rw [hfold] at hcommon
    obtain ⟨_, hfold', hs, rfl⟩ := hcommon.exists_of_ok
    obtain ⟨alpha, sigma, rest, hat⟩ := Decrease.exists_at_of_ok ps fixed 0 (.finite coeff)
      (fun i hi => by
        obtain ⟨j, hj, rfl⟩ := List.mem_map.mp hi
        exact ⟨hd _ (freeAt_free j),
          decide_eq_false fun h => hbefore j hj (isLast_of_freeAt h)⟩)
      _ ⟨rfl, rfl, rfl⟩ hfold
    rw [foldlM_concat _ hfold, foldlM_concat _ hfold']
    cases Decrease.step_compact_exact hk hbehind l ps (.finite coeff) (hd _ (freeAt_free k)) hs hat with
    | inl hok =>
      obtain ⟨t, t', hstep, hstep', hout⟩ := hok
      rw [hstep, hstep']
      exact Or.inl (.ok hout)
    | inr hbreaks =>
      obtain ⟨⟨values, hstep⟩, t', hstep'⟩ := hbreaks
      rw [hstep, hstep']
      exact Or.inr ⟨⟨values, rfl⟩, t'.out, rfl⟩

end Last

theorem update_zero (f : Factor Extended n) (v : Vector Extended n) (zero : Extended) :
    f.update v (.finite 0) fixed zero = .ok (f.restrict fixed) := by
  unfold update
  rw [zero_eq, equal_finite, decide_eq_true rfl, if_pos rfl]

theorem agree_of_nonneg (f : Factor Extended n) (v : Vector Extended n) (hcoeff : 0 ≤ coeff)
    (fixed : Vector Bool n) (zero : Extended) :
    Agree fixed (f.update v (.finite coeff) fixed zero) (f.updateFree v (.finite coeff) fixed zero) := by
  unfold updateFree
  cases hcoeff.eq_or_lt with
  | inl hnone =>
    rw [← hnone, update_zero, update_zero]
    exact .ok ⟨takesOut_restrict f, (restrict_compact f).symm⟩
  | inr hpos =>
    rw [update_of_pos hpos, update_of_pos hpos]
    exact .ok ⟨takesOut_increase f v _, (increase_compact f v _).symm⟩

theorem agree_of_last (hl : IsUnitLower l) (hd : ∀ i : Fin n, fixed[i] = false → 0 < d i)
    (hlast : ∀ k : Fin (freeCount fixed),
      k.val + 1 = freeCount fixed → (freeAt fixed k).val + 1 = n) (v : Fin n → ℝ) (coeff : ℝ)
    (zero : Extended) :
    Agree fixed ((ofReals l d).update (BoxDescent.ofReals v) (.finite coeff) fixed zero)
      ((ofReals l d).updateFree (BoxDescent.ofReals v) (.finite coeff) fixed zero) := by
  cases le_or_gt 0 coeff with
  | inl hnonneg => exact agree_of_nonneg _ _ hnonneg fixed zero
  | inr hneg =>
    unfold updateFree
    rw [update_of_neg hneg, update_of_neg hneg]
    exact decrease_compact hl hd hlast v coeff zero

theorem agree_of_positive (hl : IsUnitLower l) (hd : ∀ i : Fin n, fixed[i] = false → 0 < d i)
    (hps : ∀ i : Fin n, fixed[i] = false → ∑ j ∈ freeSet fixed, l i j * ps j = v i)
    (hpositive : 0 < 1 + coeff * ∑ j ∈ freeSet fixed, ps j ^ 2 / d j) :
    Agree fixed ((ofReals l d).update (BoxDescent.ofReals v) (.finite coeff) fixed 0)
      ((ofReals l d).updateFree (BoxDescent.ofReals v) (.finite coeff) fixed 0) := by
  by_cases hlast : ∀ k : Fin (freeCount fixed),
      k.val + 1 = freeCount fixed → (freeAt fixed k).val + 1 = n
  . exact agree_of_last hl hd hlast v coeff 0
  . cases le_or_gt 0 coeff with
    | inl hnonneg => exact agree_of_nonneg _ _ hnonneg fixed 0
    | inr hneg =>
      push Not at hlast
      obtain ⟨k, hk, hbehind⟩ := hlast
      obtain ⟨qs, hsolve, hqs⟩ := exists_isReduced fixed hl v
      rw [← hqs.ratio_eq hl hps] at hpositive
      obtain ⟨l', d', hdecrease, _⟩ := decrease_exact hl hd hqs hpositive hsolve
      unfold updateFree
      rw [update_of_neg hneg, update_of_neg hneg]
      cases decrease_compact_exact hk hbehind hl hd v coeff with
      | inl hagree => exact hagree
      | inr hbreaks =>
        -- A positive definite result keeps the scalars away from zero.
        obtain ⟨⟨values, herror⟩, _⟩ := hbreaks
        cases hdecrease.symm.trans herror

namespace FixedLast

def mask : Vector Bool 2 :=
  #v[false, true]

def place : Fin (freeCount mask) :=
  ⟨0, by decide⟩

theorem freeSet_mask : freeSet mask = {0} := by
  decide

theorem place_last : place.val + 1 = freeCount mask := by
  decide

theorem place_behind : (freeAt mask place).val + 1 ≠ 2 := by
  decide

theorem solves : ∀ i : Fin 2, mask[i] = false → ∑ j ∈ freeSet mask, ones i j * (1 : ℝ) = 1 := by
  intro i hi
  rw [freeSet_mask, Finset.sum_singleton, mul_one]
  exact if_pos (Fin.zero_le i)

theorem mass_eq {ps : Fin 2 → ℝ} (hps : ps 0 = 1) :
    mass (fun _ => 1) ps (unmasked mask) = 1 := by
  have hfree : unmasked mask = [0] := by
    decide
  unfold mass
  rw [hfree, List.map_singleton, List.sum_singleton, hps, mul_one, div_one]

theorem sigma_eq : (-(3 / 4) : ℝ) / (1 + Real.sqrt (1 + -(3 / 4) * 1)) = -(1 / 2) := by
  have hratio : (1 + -(3 / 4) * 1 : ℝ) = 1 / 2 * (1 / 2) := by
    norm_num
  rw [hratio, Real.sqrt_mul_self (by norm_num)]
  norm_num

theorem updateFree_eq (zero : ℝ) : ∃ g, (ofReals ones fun _ => 1).updateFree
      (BoxDescent.ofReals fun _ => 1) (.finite (-(3 / 4))) mask (.finite zero) = .ok g ∧
    g.diag[place] = .finite (1 / 4) := by
  have hd : ∀ i : Fin 2, mask[i] = false → (0 : ℝ) < 1 := fun _ _ => one_pos
  obtain ⟨ps, _, hps⟩ := exists_isReduced mask isUnitLower_ones fun _ => 1
  have hone : ps 0 = 1 := hps.eq_of_solves isUnitLower_ones solves 0 (by rw [freeSet_mask]; simp)
  have hplaces : List.finRange (freeCount mask) = [place] := rfl
  have hq : ps (freeAt mask place) * ps (freeAt mask place) / 1 = 1 := by
    have hplace : freeAt mask place = 0 := rfl
    rw [hplace, hone, mul_one, div_one]
  have hat : Decrease.At (Decrease.initial (fun _ => 1) (fun _ => 1) ps (-(3 / 4)) mask) (-(3 / 4))
      (-(1 / 2)) 1 := by
    have hmass := mass_eq hone
    refine ⟨rfl, ?_, congrArg Extended.finite hmass⟩
    unfold Decrease.initial ratio
    rw [hmass, sigma_eq]
  obtain ⟨t, beta, hstep, hout⟩ := Decrease.step_compact_ok place_last (d := fun _ => 1) ones zero
    (.finite (-(3 / 4))) one_pos hq hat
  refine ⟨t.out, ?_, ?_⟩
  . unfold updateFree
    rw [update_of_neg (by norm_num), decrease_compact_eq isUnitLower_ones hd hps, hplaces,
      List.foldlM_cons, hstep]
    rfl
  . rw [hout]
    unfold writeColumn
    rw [getElem_set, if_pos rfl]
    unfold Decrease.factor Decrease.floored
    norm_num

end FixedLast

/-- An update treats fixed variables as if they were deleted, except that a decrease still sees them behind
the last free one. With a floor the last free entry of `D` then becomes larger by the floor times the old one.
Without one the update may fail at that column, but not if the new matrix is positive definite. -/
theorem update_compact (hl : IsUnitLower l) (hd : ∀ i : Fin n, fixed[i] = false → 0 < d i)
    (v : Fin n → ℝ) (coeff zero : ℝ) :
    ((0 ≤ coeff ∨ (∀ j : Fin n, j.val + 1 = n → fixed[j] = false) ∨
        zero = 0 ∧ ∃ ps : Fin n → ℝ,
          (∀ i : Fin n, fixed[i] = false → ∑ j ∈ freeSet fixed, l i j * ps j = v i) ∧
          0 < 1 + coeff * ∑ j ∈ freeSet fixed, ps j ^ 2 / d j) →
      Agree fixed ((ofReals l d).update (BoxDescent.ofReals v) (.finite coeff) fixed (.finite zero))
        ((ofReals l d).updateFree (BoxDescent.ofReals v) (.finite coeff) fixed (.finite zero))) ∧
    ∀ k : Fin (freeCount fixed), k.val + 1 = freeCount fixed → (freeAt fixed k).val + 1 ≠ n →
      coeff < 0 →
      (0 < zero → ∃ g g',
        (ofReals l d).update (BoxDescent.ofReals v) (.finite coeff) fixed (.finite zero) = .ok g ∧
        (ofReals l d).updateFree (BoxDescent.ofReals v) (.finite coeff) fixed (.finite zero) = .ok g' ∧
        TakesOut fixed g ∧ g.compact fixed =
          { g' with diag := g'.diag.set k (g'.diag[k] + .finite (zero * d (freeAt fixed k))) k.isLt }) ∧
      (zero = 0 →
        Agree fixed ((ofReals l d).update (BoxDescent.ofReals v) (.finite coeff) fixed (.finite zero))
          ((ofReals l d).updateFree (BoxDescent.ofReals v) (.finite coeff) fixed (.finite zero)) ∨
        (∃ values, (ofReals l d).update (BoxDescent.ofReals v) (.finite coeff) fixed (.finite zero) =
          .error (.breakdown (.decrease .scalar (freeAt fixed k) values))) ∧
        ∃ g', (ofReals l d).updateFree (BoxDescent.ofReals v) (.finite coeff) fixed (.finite zero) =
          .ok g') := by
  constructor
  . intro hcases
    obtain hnonneg | hlast | ⟨rfl, ps, hps, hpositive⟩ := hcases
    . exact agree_of_nonneg _ _ hnonneg fixed _
    . exact agree_of_last hl hd (fun k => freeAt_isLast hlast) v coeff _
    . exact agree_of_positive hl hd hps hpositive
  . intro k hk hbehind hneg
    unfold updateFree
    rw [update_of_neg hneg, update_of_neg hneg]
    constructor
    . exact decrease_compact_floored hk hbehind hl hd v coeff
    . rintro rfl
      exact decrease_compact_exact hk hbehind hl hd v coeff

theorem update_compact_fixedLast :
    Agree FixedLast.mask
      ((ofReals ones fun _ => 1).update (BoxDescent.ofReals fun _ => 1) (.finite (-(3 / 4)))
        FixedLast.mask (.finite 0))
      ((ofReals ones fun _ => 1).updateFree (BoxDescent.ofReals fun _ => 1)
        (.finite (-(3 / 4))) FixedLast.mask (.finite 0)) ∧
    ∃ g g', (ofReals ones fun _ => 1).update (BoxDescent.ofReals fun _ => 1)
        (.finite (-(3 / 4))) FixedLast.mask (.finite (1 / 67108864)) = .ok g ∧
      (ofReals ones fun _ => 1).updateFree (BoxDescent.ofReals fun _ => 1)
        (.finite (-(3 / 4))) FixedLast.mask (.finite (1 / 67108864)) = .ok g' ∧
      TakesOut FixedLast.mask g ∧ g.compact FixedLast.mask = { g' with
        diag := g'.diag.set FixedLast.place (g'.diag[FixedLast.place] + .finite (1 / 67108864 * 1))
          FixedLast.place.isLt } := by
  constructor
  . refine (update_compact isUnitLower_ones (fun _ _ => one_pos) (fun _ => 1) (-(3 / 4)) 0).1
      (Or.inr (Or.inr ⟨rfl, fun _ => 1, FixedLast.solves, ?_⟩))
    rw [FixedLast.freeSet_mask, Finset.sum_singleton]
    norm_num
  . exact ((update_compact isUnitLower_ones (fun _ _ => one_pos) (fun _ => 1) (-(3 / 4))
      (1 / 67108864)).2 FixedLast.place FixedLast.place_last FixedLast.place_behind
      (by norm_num)).1 (by norm_num)

theorem update_keeps_floor : IsUnitLower (ones : Fin 2 → Fin 2 → ℝ) ∧
    ∃ g g', (ofReals ones fun _ => 1).update (BoxDescent.ofReals fun _ => 1)
        (.finite (-(3 / 4))) FixedLast.mask (.finite (1 / 67108864)) = .ok g ∧
      (ofReals ones fun _ => 1).updateFree (BoxDescent.ofReals fun _ => 1)
        (.finite (-(3 / 4))) FixedLast.mask (.finite (1 / 67108864)) = .ok g' ∧
      (g.compact FixedLast.mask).diag[FixedLast.place] = .finite (1 / 4 + 1 / 67108864) ∧
      g'.diag[FixedLast.place] = .finite (1 / 4) ∧ g.compact FixedLast.mask ≠ g' := by
  have hzero : (0 : ℝ) < 1 / 67108864 := by
    norm_num
  obtain ⟨g, g', hlarge, hsmall, _, hcompact⟩ := decrease_compact_floored FixedLast.place_last
    FixedLast.place_behind isUnitLower_ones (d := fun _ => 1) (fun _ _ => one_pos)
    (fun _ => 1) (-(3 / 4)) hzero
  obtain ⟨g₁, hfree, hdiag⟩ := FixedLast.updateFree_eq (1 / 67108864)
  have hneg : -(3 / 4) < (0 : ℝ) := by
    norm_num
  have hsmall' : (ofReals ones fun _ => 1).updateFree (BoxDescent.ofReals fun _ => 1)
      (.finite (-(3 / 4))) FixedLast.mask (.finite (1 / 67108864)) = .ok g' := by
    unfold updateFree
    rw [update_of_neg hneg]
    exact hsmall
  have hsame : g' = g₁ := Except.ok.inj (hsmall'.symm.trans hfree)
  rw [← hsame] at hdiag
  have hfloor : (g.compact FixedLast.mask).diag[FixedLast.place] = .finite (1 / 4 + 1 / 67108864) := by
    rw [hcompact]
    show (g'.diag.set FixedLast.place _ FixedLast.place.isLt)[FixedLast.place] = _
    rw [getElem_set, if_pos rfl, hdiag, finite_add, mul_one]
  refine ⟨isUnitLower_ones, g, g', ?_, hsmall', hfloor, hdiag, ?_⟩
  . rw [update_of_neg hneg]
    exact hlarge
  . intro heq
    rw [heq, hdiag, finite_inj] at hfloor
    norm_num at hfloor

end Factor

end BoxDescent
