import BoxDescent.Scalar

/-!
This module contains vectors and square matrices of a fixed size and the sums over them. A sum runs over
a list of positions, in the order of that list and from zero: the sums of the method range over the
free variables only, and no smaller vector is ever copied out.
-/

namespace BoxDescent

section Reading

variable {β : Type} {n : Nat}

/-- A position among `n` carries its own bound, so a vector of that size is read there without a side
condition. -/
instance instGetElemFin : GetElem (Vector β n) (Fin n) β fun _ _ => True where
  getElem v i _ := v.get i

@[simp]
theorem getElem_val (v : Vector β n) (i : Fin n) : v[i.val] = v[i] := rfl

@[simp]
theorem getElem_vectorOfFn (f : Fin n → β) (i : Fin n) : (Vector.ofFn f)[i] = f i :=
  Vector.getElem_ofFn i.isLt

@[simp]
theorem getElem_replicate (b : β) (i : Fin n) : (Vector.replicate n b)[i] = b :=
  Vector.getElem_replicate i.isLt

theorem getElem_set (v : Vector β n) (i j : Fin n) (b : β) :
    (v.set i b i.isLt)[j] = if i = j then b else v[j] := by
  simp only [Fin.ext_iff]
  exact Vector.getElem_set i.isLt j.isLt

end Reading

variable {α : Type} [Scalar α] {n : Nat}

abbrev Square (α : Type) (n : Nat) := Vector (Vector α n) n

namespace Square

def ofFn (f : Fin n → Fin n → α) : Square α n :=
  Vector.ofFn fun i => Vector.ofFn fun j => f i j

omit [Scalar α] in
@[simp]
theorem getElem_ofFn (f : Fin n → Fin n → α) (i j : Fin n) : (ofFn f)[i][j] = f i j := by
  simp [ofFn]

def identity : Square α n :=
  ofFn fun i j => if i = j then 1 else 0

def transpose (m : Square α n) : Square α n :=
  ofFn fun i j => m[j][i]

end Square

def place? (size : Nat) (position : Int) : Option (Fin size) :=
  let i := if position < 0 then position + size else position
  if h : 0 ≤ i ∧ i < size then some ⟨i.toNat, by omega⟩ else none

def sized? {β : Type} (n : Nat) (xs : Array β) : Option (Vector β n) :=
  if h : xs.size = n then some ⟨xs, h⟩ else none

def unmasked (mask : Vector Bool n) : List (Fin n) :=
  (List.finRange n).filter fun i => !mask[i]

def masked (mask : Vector Bool n) : List (Fin n) :=
  (List.finRange n).filter fun i => mask[i]

theorem mem_unmasked {mask : Vector Bool n} {i : Fin n} : i ∈ unmasked mask ↔ mask[i] = false := by
  simp [unmasked]

theorem mem_masked {mask : Vector Bool n} {i : Fin n} : i ∈ masked mask ↔ mask[i] = true := by
  simp [masked]

def sumOver (is : List (Fin n)) (f : Fin n → α) : α :=
  is.foldl (fun s i => s + f i) 0

def dotOver (is : List (Fin n)) (u v : Vector α n) : α :=
  match is with
  | [i] => u[i] * v[i]
  | is => sumOver is fun i => u[i] * v[i]

def normOver (is : List (Fin n)) (v : Vector α n) : α :=
  Scalar.sqrt (dotOver is v v)

def dot (u v : Vector α n) : α := dotOver (List.finRange n) u v

def norm (v : Vector α n) : α := normOver (List.finRange n) v

def maximumOver (is : List (Fin n)) (f : Fin n → α) : α :=
  is.foldl (fun m i => Scalar.maximum m (f i)) 0

def maximum? (f : Fin n → α) : Option α :=
  match List.finRange n with
  | [] => none
  | i :: is => some (is.foldl (fun m j => Scalar.maximum m (f j)) (f i))

def Square.mulVec (m : Square α n) (v : Vector α n) : Vector α n :=
  Vector.ofFn fun i => sumOver (List.finRange n) fun j => m[i][j] * v[j]

end BoxDescent
