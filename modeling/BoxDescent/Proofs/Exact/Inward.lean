import BoxDescent.Proofs.Exact.Solver
import BoxDescent.Proofs.Factor.Reset
import BoxDescent.Proofs.LineSearch.Effect
import BoxDescent.Proofs.Reflection.Solver
import BoxDescent.Proofs.Solver.Freed

/-!
This module contains where a variable goes that is released. In exact arithmetic its row of the factors is
that of the identity, so it follows the negative gradient (`Factor.direction_of_isReset`), and as its
multiplier is negative, that leads away from its bound. The next search scales the direction by a positive
number, and it only fixes variables at bounds that they head into, so it cannot hold the variable where it was
released.
-/

namespace BoxDescent

open Extended

variable {n : Nat}

section Direction

theorem zero_mul_cases (a : Extended) : 0 * a = 0 ∨ 0 * a = .nan := by
  cases a with
  | finite r =>
    refine Or.inl ?_
    rw [zero_eq, finite_mul, zero_mul]
  | posInf =>
    refine Or.inr ?_
    show infinity 0 = .nan
    simp [infinity]
  | negInf =>
    refine Or.inr ?_
    show infinity (-0) = .nan
    simp [infinity]
  | nan => exact Or.inr rfl

theorem foldl_add_vanishes {is : List (Fin n)} {f : Fin n → Extended}
    (h : ∀ i ∈ is, f i = 0 ∨ f i = .nan) : ∀ s : Extended, s = 0 ∨ s = .nan →
      is.foldl (fun s i => s + f i) s = 0 ∨ is.foldl (fun s i => s + f i) s = .nan := by
  induction is with
  | nil => exact fun _ hs => hs
  | cons i is ih =>
    intro s hs
    apply ih fun j hj => h j (List.mem_cons_of_mem i hj)
    dsimp only
    cases hs with
    | inr hs =>
      rw [hs]
      exact Or.inr nan_add
    | inl hs =>
      rw [hs]
      cases h i List.mem_cons_self with
      | inl hi =>
        rw [hi, zero_eq, finite_add, add_zero]
        exact Or.inl rfl
      | inr hi =>
        rw [hi]
        exact Or.inr add_nan

theorem dotOver_vanishes {is : List (Fin n)} {u v : Vector Extended n}
    (h : ∀ i ∈ is, u[i] * v[i] = 0 ∨ u[i] * v[i] = .nan) :
    dotOver is u v = 0 ∨ dotOver is u v = .nan := by
  unfold dotOver
  split
  . next i => exact h i (List.mem_singleton_self i)
  . exact foldl_add_vanishes h 0 (Or.inl rfl)

theorem Triangle.getElem_solve_of_row {t : Triangle} {m : Square Extended n} {b : Vector Extended n}
    {skip : Vector Bool n} {x : Fin n → ℝ} (hx : t.solve m b skip = ofReals x) {j : Fin n}
    (hj : skip[j] = false) (hdiag : m[j][j] = 1)
    (hrow : ∀ k ∈ t.beside j, m[j][k] = 0 ∨ m[j][k] = .nan) : b[j] = .finite (x j) := by
  have hunknown := t.getElem_solve m b skip j
  rw [hx, if_neg (Bool.eq_false_iff.mp hj), getElem_ofReals] at hunknown
  unfold Triangle.unknown at hunknown
  have hdot : dotOver (t.beside j) m[j] (ofReals x) = 0 ∨ dotOver (t.beside j) m[j] (ofReals x) = .nan := by
    apply dotOver_vanishes
    intro k hk
    cases hrow k hk with
    | inl hzero =>
      rw [hzero]
      exact zero_mul_cases _
    | inr hnan =>
      rw [hnan]
      exact Or.inr nan_mul
  rw [hdiag, one_eq] at hunknown
  cases hdot with
  | inl hzero =>
    rw [hzero] at hunknown
    obtain ⟨r, hr⟩ := eq_finite_of_div hunknown.symm
    obtain ⟨g, hg⟩ := eq_finite_of_sub hr
    rw [hg, zero_eq, finite_sub, finite_div one_ne_zero, finite_inj, sub_zero, div_one] at hunknown
    rw [hg, hunknown]
  | inr hnan =>
    rw [hnan, sub_nan, nan_div] at hunknown
    cases hunknown

namespace Factor

variable {f : Factor Extended n} {fixed : Vector Bool n} {j : Fin n}

theorem IsReset.scaled_beside (h : f.IsReset j 1) (hfree : fixed[j] = false) :
    (f.scaled fixed)[j][j] = 1 ∧ ∀ k ∈ Triangle.lower.beside j,
      (f.scaled fixed)[j][k] = 0 ∨ (f.scaled fixed)[j][k] = .nan := by
  unfold scaled
  constructor
  . rw [Square.getElem_ofFn, if_neg (Bool.eq_false_iff.mp hfree), h.row, if_pos rfl, h.diag, one_eq,
      finite_mul, mul_one]
  . intro k hk
    rw [Square.getElem_ofFn, h.row, if_neg (ne_of_mem_of_not_mem hk (Triangle.not_mem_beside j)).symm]
    split
    . exact Or.inl rfl
    . exact zero_mul_cases _

theorem IsReset.transpose_beside (h : f.IsReset j 1) : f.lower.transpose[j][j] = 1 ∧
    ∀ k ∈ Triangle.upper.beside j, f.lower.transpose[j][k] = 0 ∨ f.lower.transpose[j][k] = .nan := by
  unfold Square.transpose
  constructor
  . rw [Square.getElem_ofFn, h.row, if_pos rfl]
  . intro k hk
    rw [Square.getElem_ofFn, h.column, if_neg (ne_of_mem_of_not_mem hk (Triangle.not_mem_beside j))]
    exact Or.inl rfl

theorem direction_of_isReset {grad p : Vector Extended n} (h : f.direction grad fixed = .ok p)
    (hj : f.IsReset j 1) (hfree : fixed[j] = false) : ∃ g, grad[j] = .finite g ∧ p[j] = .finite (-g) := by
  obtain ⟨y, q, hy, hq, rfl⟩ := solves_of_direction h
  obtain ⟨hdiag, hrow⟩ := hj.scaled_beside hfree
  have hforward := Triangle.getElem_solve_of_row hy hfree hdiag hrow
  obtain ⟨hdiag, hrow⟩ := hj.transpose_beside
  have hbackward := Triangle.getElem_solve_of_row hq hfree hdiag hrow
  rw [getElem_vectorOfFn, if_neg (Bool.eq_false_iff.mp hfree)] at hforward
  rw [getElem_ofReals, finite_inj] at hbackward
  obtain ⟨g, hg⟩ := eq_finite_of_neg hforward
  rw [hg, finite_neg, finite_inj, hbackward] at hforward
  exact ⟨g, hg, by rw [getElem_ofReals, hforward]⟩

end Factor

end Direction

section Scale

open LineSearch

theorem isLimit_of_not_nonpos {m : Extended} (hm : ¬m ≤ 0) : IsLimit m := by
  constructor
  . intro hneg
    rw [hneg] at hm
    exact hm trivial
  . intro r hr
    rw [hr, zero_eq, finite_le, not_le] at hm
    exact hm.le

theorem scale_positive (fixed : Vector Bool n) (p : Fin n → ℝ) {maxNorm : Extended}
    (hm : ¬maxNorm ≤ 0) : ∃ q c, 0 < c ∧
      (scale (ofReals p) fixed maxNorm).direction = ofReals q ∧
      ∀ i : Fin n, fixed[i] = false → q i = p i * c := by
  obtain ⟨m, rfl, _, hlt, hdirection, _⟩ | ⟨hdirection, _⟩ :=
    scale_cases fixed p (isLimit_of_not_nonpos hm)
  . rw [zero_eq, finite_le, not_le] at hm
    refine ⟨_, m / freeNorm fixed p, div_pos hm (hm.trans hlt), hdirection, ?_⟩
    intro i hi
    rw [if_neg (Bool.eq_false_iff.mp hi)]
  . exact ⟨p, 1, one_pos, hdirection, fun i _ => (mul_one _).symm⟩

theorem infinity_not_nonpos {r : ℝ} (hr : 0 < r) : ¬infinity r ≤ 0 := by
  unfold infinity
  rw [if_pos hr]
  exact id

theorem mul_not_nonpos {a b : Extended} (ha : ¬a ≤ 0) (hb : ¬b ≤ 0) : ¬a * b ≤ 0 := by
  cases a with
  | negInf => exact absurd trivial ha
  | nan =>
    rw [nan_mul]
    exact not_nan_le
  | finite r =>
    rw [zero_eq, finite_le, not_le] at ha
    cases b with
    | negInf => exact absurd trivial hb
    | nan =>
      rw [mul_nan]
      exact not_nan_le
    | finite s =>
      rw [zero_eq, finite_le, not_le] at hb
      rw [finite_mul, zero_eq, finite_le, not_le]
      exact mul_pos ha hb
    | posInf => exact infinity_not_nonpos ha
  | posInf =>
    cases b with
    | negInf => exact absurd trivial hb
    | nan =>
      rw [mul_nan]
      exact not_nan_le
    | finite s =>
      rw [zero_eq, finite_le, not_le] at hb
      exact infinity_not_nonpos hb
    | posInf => exact id

theorem pickMax_not_nonpos {a b : Extended} (hb : 0 < b) : ¬Scalar.pickMax a b ≤ 0 := by
  unfold Scalar.pickMax
  split
  . exact Scalar.not_le_of_lt hb
  . next hnot => exact fun ha => hnot (Scalar.lt_of_le_of_lt ha hb)

theorem maxNorm_not_nonpos {settings : Settings Extended} (h : ¬settings.maxStep ≤ 0) (hn : 0 < n)
    (g : Vector Extended n) : ¬Solver.maxNorm settings n g ≤ 0 := by
  have hcount : (0 : Extended) < Scalar.ofCount n := by
    rw [ofCount_eq, zero_eq, finite_lt]
    exact Nat.cast_pos.mpr hn
  unfold Solver.maxNorm
  exact mul_not_nonpos h (pickMax_not_nonpos hcount)

end Scale

def Side.LeadsInside : Side → ℝ → Prop
  | .lower, d => 0 < d
  | .upper, d => d < 0

theorem Side.LeadsInside.towards {side : Side} {d c : ℝ} (h : side.LeadsInside d) (hc : 0 < c) :
    LineSearch.towards (Extended.finite (d * c)) = side.opposite := by
  unfold LineSearch.towards
  cases side with
  | lower => exact if_pos (finite_lt.mpr (mul_pos h hc))
  | upper => exact if_neg fun hgt => (mul_neg_of_neg_of_pos h hc).not_gt (finite_lt.mp hgt)

namespace Solver

structure Iterate.Leaves (s : Iterate Extended n) (b : Bounds Extended n) (j : Fin n) (side : Side)
    (v : Extended) : Prop where
  free : s.activeSet.fixed[j] = false
  original : b.bound j side = some v
  inForce : s.activeSet.working.bound j side = some v
  sits : s.x[j] = v
  inward : ∃ g, s.grad[j] = .finite g ∧ s.direction[j] = .finite (-g) ∧ side.LeadsInside (-g)

theorem first_neg_of_isReleased {e : Release.Estimate Extended} {first : ℝ}
    (hfirst : e.first = .finite first) (h : e.isReleased = true) : first < 0 := by
  unfold Release.Estimate.isReleased at h
  rw [decide_eq_true_eq, hfirst] at h
  obtain ⟨hproduct, _, hsecond⟩ := h
  cases hsum : e.second with
  | finite second =>
    rw [hsum, gt_iff_lt, zero_eq, finite_mul, finite_lt] at hproduct
    rw [hsum, zero_eq, finite_lt] at hsecond
    exact (neg_iff_neg_of_mul_pos hproduct).mpr hsecond
  | negInf =>
    rw [hsum] at hproduct
    have hinf : Extended.finite first * .negInf = infinity (-first) := rfl
    rw [hinf] at hproduct
    unfold infinity at hproduct
    split at hproduct
    . next hpos => exact neg_pos.mp hpos
    . split at hproduct
      . exact hproduct.1.elim
      . exact (not_lt_nan hproduct).elim
  | posInf =>
    rw [hsum] at hsecond
    exact hsecond.1.elim
  | nan =>
    rw [hsum] at hsecond
    exact (not_nan_lt hsecond).elim

section Release

variable {b : Bounds Extended n} {t : Task Extended n} {s s' : Iterate Extended n}
  {toFree : List (Fin n)} (hc : b.crossed = false) (hb : b.AllFinite) (hp : t.precision.Positive)

include hb in
theorem leadsInside_of_multiplier {a : ActiveSet Extended n} {x grad : Vector Extended n}
    {held : List (Fin n)} (ha : a.Holds b held x) (hsep : b.Separates x) {j : Fin n} {side : Side}
    (hheld : a.HeldAt b j side x[j]) (hfixed : a.fixed[j] = true) {g : ℝ} (hg : grad[j] = .finite g)
    {first : Extended} (hfirst : a.multiplier x grad j = .ok first) :
    ∃ m, first = .finite m ∧ (m < 0 → side.LeadsInside (-g)) := by
  have hreached := Bounds.reached_of_eq hheld.original (ha.le_self hb hfixed)
  unfold ActiveSet.multiplier at hfirst
  rw [ha.bounds, hg] at hfirst
  cases side with
  | upper =>
    rw [if_pos hreached, Except.ok.injEq] at hfirst
    exact ⟨-g, hfirst.symm, id⟩
  | lower =>
    rw [ActiveSet.not_reached_both hsep hreached, if_neg Bool.false_ne_true, if_pos hreached,
      Except.ok.injEq] at hfirst
    exact ⟨g, hfirst.symm, neg_pos.mpr⟩

include hc hb hp

theorem Iterate.Releases.leaves (hkeeps : s.Keeps b) (h : s.Releases t toFree s') {j : Fin n}
    (hj : j ∈ toFree) : ∃ side v, s'.Leaves b j side v := by
  have hkeeps' : s'.Keeps b := (pass_meets hc hb hp hkeeps).value _ h.pass
  obtain ⟨r, grad, kept, ⟨_, _, hsteps, _, _, hselect⟩, direction, hdirection, rfl⟩ := h
  have hr := hkeeps.search hc hp hsteps.search
  obtain ⟨es, hdecided⟩ := Release.decision_decided hselect
  obtain ⟨hmem, e, hestimate, hreleased⟩ := hdecided.mem_toFree.mp hj
  obtain ⟨_, _, hfirst, _⟩ := Release.estimate_result hestimate
  have hfixed := (hr.holds.mem j).mp hmem
  have hfree : ((s.move r grad).released kept toFree).activeSet.fixed[j] = false :=
    (ActiveSet.fixed_releaseAll r.x toFree { r.activeSet with indices := kept } j).trans (if_pos hj)
  obtain ⟨g, hg, hdirection⟩ := Factor.direction_of_isReset hdirection
    (Factor.isReset_resetAll s.factor hj 1) hfree
  obtain ⟨side, hheld⟩ := hr.holds.sits j hfixed
  -- The first of the two estimates for which the variable is released is the multiplier of this bound.
  obtain ⟨m, hm, hinside⟩ := leadsInside_of_multiplier hb hr.holds hr.separates hheld hfixed hg hfirst
  refine ⟨side, r.x[j], hfree, hheld.original, ?_, rfl, g, hg, hdirection,
    hinside (first_neg_of_isReleased hm hreleased)⟩
  exact (hkeeps'.holds.free j hfree side).trans hheld.original

omit hb in
theorem Iterate.Leaves.search (hkeeps : s.Keeps b) (hs : ∃ p, s.direction = ofReals p)
    (hm : ¬t.maxNorm ≤ 0) {j : Fin n} {side : Side} {v : Extended} (h : s.Leaves b j side v)
    {r : SearchResult Extended n} (hsearch : (s.search t).result = .ok r) :
    r.activeSet.working.bound j side = some v ∧
      (r.activeSet.fixed[j] = true → r.activeSet.HeldAt b j side.opposite r.x[j]) := by
  obtain ⟨p, hp'⟩ := hs
  obtain ⟨g, _, hdirection, hinside⟩ := h.inward
  have heffect := (LineSearch.search_hasEffect hp _ _ _ _ _ _ _ _).value r hsearch
  have halong := (LineSearch.search_isAlong _ _ _ _ _ _).value r hsearch
  obtain ⟨q, c, hc', hscale, hq⟩ := scale_positive s.activeSet.fixed p hm
  rw [hp', getElem_ofReals, finite_inj] at hdirection
  have htowards : LineSearch.towards r.direction[j] = side.opposite := by
    rw [halong.direction, hp', hscale, getElem_ofReals, hq j h.free, hdirection]
    exact hinside.towards hc'
  -- The search only takes bounds out of force that variables head into.
  have hworking : r.activeSet.working.bound j side = some v := by
    rw [heffect.gains.working, htowards, if_neg, h.inForce]
    exact fun hand => side.opposite_ne hand.2.symm
  refine ⟨hworking, ?_⟩
  intro hfixed
  obtain ⟨side', hheld⟩ := (hkeeps.search hc hp hsearch).holds.sits j hfixed
  cases Side.eq_or_eq_opposite side side' with
  | inl hsame =>
    have hremoved := hheld.removed
    rw [hsame, hworking] at hremoved
    cases hremoved
  | inr hopposite =>
    rw [← hopposite]
    exact hheld

end Release

theorem Iterate.Decides.exists_releases {E : Error Extended → Prop} {b : Bounds Extended n}
    {t : Task Extended n} {s : Iterate Extended n} (hE : Tolerates E t.problem) (ht : t.IsExact)
    (hc : b.crossed = false) (hb : b.AllFinite) (hkeeps : s.Keeps b) (hs : s.IsExact)
    {r : SearchResult Extended n} {grad : Vector Extended n} {kept toFree : List (Fin n)}
    (h : s.Decides t r grad kept toFree) : ∃ s', s.Releases t toFree s' := by
  have hdecides := h
  obtain ⟨_, _, hsteps, _⟩ := h
  have hexact := (search_exact (E := fun _ => True) trivial (hE.mono fun _ _ => trivial) ht hb hkeeps
    hs).value r hsteps.search
  have hrkeeps := hkeeps.search hc ht.parameters.positive hsteps.search
  obtain ⟨x, hx⟩ := result_finite hb hrkeeps hexact.free
  have hgradient := hsteps.gradient
  rw [hx] at hgradient
  obtain ⟨g, rfl⟩ := hE.regular.gradient x grad hgradient
  obtain ⟨hpoint, hvalue, hgrad, hfactor⟩ := move_prepared hb hkeeps hs hexact hrkeeps g
  have hkept : Iterate.IsPrepared { s.move r (ofReals g) with
      activeSet := { r.activeSet with indices := kept } } := ⟨hpoint, hvalue, hgrad, hfactor⟩
  have hreleased : ((s.move r (ofReals g)).released kept toFree).IsPrepared :=
    (release_exact (fun _ => True) hkept toFree).value _
      (release_result (s.move r (ofReals g)) kept toFree)
  have hredirect := redirect_prepared (E := fun _ => False) hreleased
  cases hresult : (Iterate.redirect ((s.move r (ofReals g)).released kept toFree)).result with
  | error e => exact (hredirect.error e hresult).elim
  | ok s' => exact ⟨s', r, _, kept, hdecides, redirect_redirects hresult⟩

end Solver

/-- In exact arithmetic a round that decides to release variables finds a direction. There each of them goes
along the negative gradient, which leads into the box, and the search that follows leaves its bound in force:
it may only hold the variable on the opposite side. -/
theorem solve_releases_inward {problem : Problem Extended n} {b : Bounds Extended n} (hb : b.AllFinite)
    {x₀ : Fin n → ℝ} (hcheck : b.checkStart (ofReals x₀) = .ok ())
    (hproblem : problem.IsFiniteFrom (ofReals x₀)) {settings : Settings Extended}
    (hsettings : settings.Valid) {epsilon zero : ℝ} (hepsilon : 0 < epsilon) (hzero : 0 < zero)
    {searchFuel : Nat} {t : Solver.Task Extended n} {s₀ s : Solver.Iterate Extended n}
    (hruns : Runs problem settings { epsilon := .finite epsilon, zero := .finite zero } searchFuel b
      (ofReals x₀) t s₀) (hvisited : Solver.Visited t s₀ s) {r : SearchResult Extended n}
    {grad : Vector Extended n} {kept toFree : List (Fin n)} (hdecides : s.Decides t r grad kept toFree) :
    ∃ s', (s.pass t).result = .ok (.inl s') ∧ ∀ j ∈ toFree, ∃ side v, s'.Leaves b j side v ∧
      ∀ r', (s'.search t).result = .ok r' → r'.activeSet.working.bound j side = some v ∧
        (r'.activeSet.fixed[j] = true → r'.activeSet.HeldAt b j side.opposite r'.x[j]) := by
  have hE := tolerates_unsound hproblem
  have hc := (Bounds.checkStart_eq_ok_iff.mp hcheck).1
  have h₀ := hruns.keeps hb hcheck
  obtain ⟨value, start, hobjective, hgradient, rfl, rfl⟩ := hruns
  obtain ⟨f, rfl⟩ := hproblem.start value hobjective
  obtain ⟨g, rfl⟩ := hproblem.gradient x₀ start hgradient
  have ht := Solver.taskIsExact problem hsettings hepsilon hzero searchFuel g
  have hp := ht.parameters.positive
  obtain ⟨hkeeps, hexact⟩ := Solver.visited_exact hE ht hc hb h₀ (Solver.start_exact b x₀ g f) hvisited
  obtain ⟨s', hreleases⟩ := hdecides.exists_releases hE ht hc hb hkeeps hexact
  have hkeeps' : s'.Keeps b := (Solver.pass_meets hc hb hp hkeeps).value _ hreleases.pass
  have hdirection : ∃ p, s'.direction = ofReals p := by
    obtain ⟨_, _, _, _, _, hdirection, rfl⟩ := hreleases
    exact (Factor.finite_of_direction hdirection).1
  refine ⟨s', hreleases.pass, ?_⟩
  intro j hj
  obtain ⟨side, v, hleaves⟩ := hreleases.leaves hc hb hp hkeeps hj
  refine ⟨side, v, hleaves, ?_⟩
  intro r' hsearch
  have hlimit := maxNorm_not_nonpos hsettings.2.2.2.2.2 (Fin.pos j) (ofReals g)
  exact hleaves.search hc hp hkeeps' hdirection hlimit hsearch

section Reflect

variable (σ τ : Fin n → Bool)

theorem exists_reflect_ofReals (x : Fin n → ℝ) : ∃ y, reflect σ (ofReals x) = ofReals y := by
  rw [exists_ofReals_iff]
  intro i
  rw [getElem_reflect, isFinite_signed]
  exact exists_ofReals_iff.mp ⟨x, rfl⟩ i

theorem Problem.IsFiniteFrom.reflect {p : Problem Extended n} {x₀ : Vector Extended n}
    (h : p.IsFiniteFrom x₀) : (p.reflect σ τ).IsFiniteFrom (BoxDescent.reflect σ x₀) where
  objective := by
    intro x v hv
    obtain ⟨y, hy⟩ := exists_reflect_ofReals σ x
    apply h.objective y v
    rw [← hy]
    exact hv
  start := by
    intro v hv
    apply h.start v
    rw [← reflect_reflect σ x₀]
    exact hv
  gradient := by
    intro x g hg
    obtain ⟨y, hy⟩ := exists_reflect_ofReals σ x
    have hmap : (p.gradient (ofReals y)).map (BoxDescent.reflect σ) = .ok g := by
      rw [← hy]
      exact hg
    cases hgradient : p.gradient (ofReals y) with
    | error e =>
      rw [hgradient] at hmap
      cases hmap
    | ok w =>
      rw [hgradient] at hmap
      cases hmap
      obtain ⟨w, rfl⟩ := h.gradient y w hgradient
      exact exists_reflect_ofReals σ w

end Reflect

namespace Trough

theorem allFinite_reflect : (box.reflect turned).AllFinite := by
  intro i side v hv
  rw [Bounds.bound_reflect, Option.map_eq_some_iff] at hv
  obtain ⟨w, hw, rfl⟩ := hv
  rw [isFinite_signed]
  exact Input.allFinite_of_start start_input _ _ _ hw

theorem solve_releases_inward_trough : ∃ s : Solver.Iterate Extended 2,
    (((start (2 ^ 28)).reflect turned).pass ((task (2 ^ 28) 1).reflect turned turned)).result =
      .ok (.inl s) ∧ s.Leaves (box.reflect turned) 0 .upper (.finite (1 / 4)) := by
  have horigin : reflect turned origin = point (-(7 / 4)) (-(-7 / 2)) := reflect_point _ _
  have hcheck := (Bounds.checkStart_reflect turned box origin).trans checkStart_box
  have hproblem := (isFiniteFrom (2 ^ 28)).reflect turned turned
  have hruns := runs_reflect (2 ^ 28) 1
  rw [horigin] at hcheck hproblem hruns
  have hvisited : Solver.Visited ((task (2 ^ 28) 1).reflect turned turned)
      ((start (2 ^ 28)).reflect turned) ((start (2 ^ 28)).reflect turned) := .start Nat.zero_lt_one
  obtain ⟨s, hpass, hleaves⟩ := solve_releases_inward allFinite_reflect hcheck hproblem settings_valid
    (by norm_num) (by norm_num) hruns hvisited (start_decides le_rfl 0)
  obtain ⟨side, v, hleaves, _⟩ := hleaves 0 (List.mem_singleton_self 0)
  refine ⟨s, hpass, ?_⟩
  have hbound := hleaves.original
  cases side with
  | lower => cases hbound
  | upper =>
    have hupper : (box.reflect turned).bound 0 .upper = some (.finite (1 / 4)) := by
      show some (Extended.finite (-(-1 / 4))) = _
      norm_num
    rw [hupper, Option.some.injEq] at hbound
    rw [hbound]
    exact hleaves

end Trough

end BoxDescent
