import BoxDescent.Factor.Basic

/-!
This module contains the rank-one update of the factors: from the factors of `B` to those of
`B + coeff * v * vᵀ`, over the rows and columns of the free variables. An increase sweeps the columns
once, while a decrease first solves `L * p = v` and then sweeps with scalars that it keeps away from
zero, as rounding could otherwise make the product indefinite.
-/

namespace BoxDescent.Factor

variable {α : Type} [Scalar α] {n : Nat}

def blank (fixed : Vector Bool n) : Factor α n :=
  { lower := .ofFn fun i j => if i = j ∧ fixed[i] then 1 else 0
    diag := Vector.replicate n 0 }

def restrict (f : Factor α n) (fixed : Vector Bool n) : Factor α n :=
  { lower := .ofFn fun i j =>
      if fixed[i] ∨ fixed[j] then if i = j then 1 else 0 else f.lower[i][j]
    diag := Vector.ofFn fun i => if fixed[i] then 0 else f.diag[i] }

def reduce (f : Factor α n) (fixed : Vector Bool n) (w : Vector α n) (j : Fin n) (p : α) :
    Vector α n :=
  Vector.ofFn fun i => if j < i ∧ !fixed[i] then w[i] - p * f.lower[i][j] else w[i]

def writeColumn (f : Factor α n) (fixed : Vector Bool n) (out : Factor α n) (j : Fin n) (d beta : α)
    (w : Vector α n) : Factor α n :=
  { lower := .ofFn fun r c =>
      if c = j then
        if r = j then 1
        else if j < r ∧ !fixed[r] then f.lower[r][j] + beta * w[r]
        else out.lower[r][c]
      else out.lower[r][c]
    diag := out.diag.set j d j.isLt }

namespace Increase

structure State (α : Type) (n : Nat) where
  rest : α
  reduced : Vector α n
  out : Factor α n

def step (f : Factor α n) (fixed : Vector Bool n) (s : State α n) (j : Fin n) : State α n :=
  let p := s.reduced[j]
  let d := f.diag[j] + s.rest * p * p
  let beta := p * s.rest / d
  let reduced := f.reduce fixed s.reduced j p
  { rest := s.rest * (f.diag[j] / d)
    reduced
    out := f.writeColumn fixed s.out j d beta reduced }

end Increase

def increase (f : Factor α n) (v : Vector α n) (coeff : α) (fixed : Vector Bool n) : Factor α n :=
  let start : Increase.State α n :=
    { rest := coeff
      reduced := Vector.ofFn fun i => if fixed[i] then 0 else v[i]
      out := blank fixed }
  ((unmasked fixed).foldl (Increase.step f fixed) start).out

namespace Decrease

structure State (α : Type) (n : Nat) where
  alpha : α
  sigma : α
  rest : α
  reduced : Vector α n
  out : Factor α n

def step (f : Factor α n) (fixed : Vector Bool n) (zero coeff : α) (ps : Vector α n) (s : State α n)
    (j : Fin n) : Except (Error α) (State α n) :=
  let last := decide (j.val + 1 = n)
  let dj := f.diag[j]
  let p := ps[j] * ps[j] / dj
  let theta := 1 + s.sigma * p
  let rest := s.rest - p
  let rest := if rest < 0 then 0 else rest
  let plus := s.sigma * s.sigma * p * rest
  let plus := if !last ∧ plus ≤ zero then zero else plus
  let rho := theta * theta + plus
  let d := rho * dj
  if !Scalar.isFinite d then
    .error (.breakdown (.decrease .diagonal j
      [("P", ps[j]), ("d", dj), ("t", rest), ("p", p), ("sigma", s.sigma), ("coeff", coeff)]))
  else
    let beta := s.alpha * ps[j] / (rho * dj)
    let alpha := s.alpha / rho
    let rho := Scalar.sqrt rho
    let sigma := s.sigma * ((1 + rho) / (rho * (theta + rho)))
    if !last ∧ !Scalar.isFinite sigma then
      .error (.breakdown (.decrease .scalar j
        [("rho", rho), ("theta", theta), ("P", ps[j]), ("p", p), ("d", dj), ("t", rest),
          ("sigma_old", s.sigma)]))
    else
      let reduced := f.reduce fixed s.reduced j ps[j]
      .ok { alpha, sigma, rest, reduced, out := f.writeColumn fixed s.out j d beta reduced }

end Decrease

def decrease (f : Factor α n) (v : Vector α n) (coeff : α) (fixed : Vector Bool n) (zero : α) :
    Except (Error α) (Factor α n) := do
  let ps := Triangle.lower.solve f.lower v fixed
  let rest := sumOver (unmasked fixed) fun i => ps[i] * ps[i] / f.diag[i]
  let root := 1 + coeff * rest
  let root := if root < 0 then 0 else Scalar.sqrt root
  let start : Decrease.State α n :=
    { alpha := coeff
      sigma := coeff / (1 + root)
      rest
      reduced := Vector.ofFn fun i => if fixed[i] then 0 else v[i]
      out := blank fixed }
  let last ← (unmasked fixed).foldlM (Decrease.step f fixed zero coeff ps) start
  return last.out

/-- The factors after adding `coeff * v * vᵀ` over the free variables; the fixed ones are taken out. -/
def update (f : Factor α n) (v : Vector α n) (coeff : α) (fixed : Vector Bool n) (zero : α) :
    Except (Error α) (Factor α n) :=
  if Scalar.equal coeff 0 then .ok (f.restrict fixed)
  else if 0 < coeff then .ok (f.increase v coeff fixed)
  else f.decrease v coeff fixed zero

end BoxDescent.Factor
