import BoxDescent.Input.Model
import BoxDescent.Proofs.Except
import BoxDescent.Proofs.Input.Held

/-!
This module contains models at points of a given size. If their derivatives have that size as well
(`Model.Fits`), they are the problem of that size.
-/

namespace BoxDescent

variable {α : Type} {n : Nat}

theorem exists_toArray_of_size {β : Type} {xs : Array β} (h : xs.size = n) :
    ∃ v : Vector β n, xs = v.toArray :=
  ⟨⟨xs, h⟩, rfl⟩

namespace Model

/-- At points of size `n` the derivatives have that size as well. -/
structure Fits (m : Model α) (n : Nat) : Prop where
  gradient : ∀ (x : Vector α n) (g : Array α), m.gradient x.toArray = .ok g → g.size = n
  hessianRow : ∀ row, m.hessianRow = some row → ∀ (x : Vector α n) (i : Fin n) (h : Array α),
    row x.toArray i.val = .ok (some h) → h.size = n

namespace Fits

variable {m : Model α} (hm : m.Fits n)
include hm

theorem gradient_eq (x : Vector α n) :
    m.gradient x.toArray = ((m.problem n).gradient x).map Vector.toArray := by
  unfold problem
  dsimp only
  cases hg : m.gradient x.toArray with
  | error e => rfl
  | ok g =>
    obtain ⟨v, rfl⟩ := exists_toArray_of_size (hm.gradient x g hg)
    rw [except_ok_bind, sized?_toArray]
    rfl

theorem exists_hessianRow {row : Array α → Int → Except (Fault α) (Option (Array α))}
    (hrow : m.hessianRow = some row) :
    ∃ entry, (m.problem n).hessianRow = some entry ∧ ∀ (x : Vector α n) (i : Fin n),
      row x.toArray i.val = (entry x i).map (Option.map Vector.toArray) := by
  unfold problem
  rw [hrow]
  refine ⟨_, rfl, ?_⟩
  intro x i
  dsimp only
  cases hsupplied : row x.toArray i.val with
  | error e => rfl
  | ok supplied =>
    cases supplied with
    | none => rfl
    | some h =>
      obtain ⟨v, rfl⟩ := exists_toArray_of_size (hm.hessianRow row hrow x i h hsupplied)
      rw [except_ok_bind]
      dsimp only
      rw [sized?_toArray]
      rfl

end Fits

theorem problem_ext {p q : Problem α n} (hobjective : p.objective = q.objective)
    (hgradient : p.gradient = q.gradient) (hrow : p.hessianRow = q.hessianRow) : p = q := by
  obtain ⟨objective, gradient, hessianRow⟩ := p
  cases hobjective
  cases hgradient
  cases hrow
  rfl

theorem problem_hessianRow_eq_none {m : Model α} (h : m.hessianRow = none) :
    (m.problem n).hessianRow = none := by
  unfold problem
  rw [h]
  rfl

variable [Scalar α]

theorem fits_ofQuadratic (q : Quadratic α n) : (ofQuadratic q).Fits n where
  gradient := by
    intro x g hg
    unfold ofQuadratic at hg
    dsimp only at hg
    rw [sized?_toArray] at hg
    cases hg
    exact Vector.size_toArray _
  hessianRow := by
    intro row hrow x i h hh
    unfold ofQuadratic at hrow
    cases hrow
    dsimp only at hh
    rw [place?_val] at hh
    cases hh
    exact Vector.size_toArray _

theorem problem_ofQuadratic (q : Quadratic α n) : (ofQuadratic q).problem n = q.problem := by
  have hobjective : ((ofQuadratic q).problem n).objective = q.problem.objective := by
    funext x
    unfold problem ofQuadratic
    dsimp only
    rw [sized?_toArray]
    rfl
  have hgradient : ((ofQuadratic q).problem n).gradient = q.problem.gradient := by
    funext x
    unfold problem ofQuadratic
    dsimp only
    rw [sized?_toArray, except_ok_bind, sized?_toArray]
    rfl
  have hrow : ((ofQuadratic q).problem n).hessianRow = q.problem.hessianRow := by
    unfold problem ofQuadratic Quadratic.problem
    rw [Option.map_some, Option.some.injEq]
    funext x i
    dsimp only
    rw [place?_val, except_ok_bind]
    dsimp only
    rw [sized?_toArray]
    rfl
  exact problem_ext hobjective hgradient hrow

theorem fits_formulas {f : Formula α} {g : List (Formula α)}
    {h : Option (List (Option (List (Formula α))))} (hg : g.length = n)
    (hh : ∀ rows, h = some rows → ∀ row, some row ∈ rows → row.length = n) :
    (formulas f g h).Fits n where
  gradient := by
    intro x d hd
    unfold formulas at hd
    obtain ⟨values, hvalues, hd⟩ := except_bind_eq_ok_iff.mp hd
    cases hd
    rw [List.size_toArray, length_of_mapM hvalues, hg]
  hessianRow := by
    intro row hrow x i d hd
    unfold formulas at hrow
    obtain ⟨rows, hrows, rfl⟩ := Option.map_eq_some_iff.mp hrow
    dsimp only at hd
    cases hplace : place? rows.length i.val with
    | none =>
      rw [hplace] at hd
      cases hd
    | some j =>
      rw [hplace] at hd
      dsimp only at hd
      cases hentries : rows[j] with
      | none =>
        rw [hentries] at hd
        cases hd
      | some entries =>
        rw [hentries] at hd
        obtain ⟨values, hvalues, hd⟩ := except_bind_eq_ok_iff.mp hd
        cases hd
        have hmem : some entries ∈ rows := hentries ▸ List.getElem_mem j.isLt
        rw [List.size_toArray, length_of_mapM hvalues, hh rows hrows entries hmem]

end Model

theorem Formula.eval_var [Scalar α] (x : Vector α n) (i : Fin n) :
    (Formula.var i.val : Formula α).eval x.toArray = .ok x[i] := by
  obtain ⟨x, rfl⟩ := x
  unfold Formula.eval
  rw [place?_val]
  rfl

end BoxDescent
