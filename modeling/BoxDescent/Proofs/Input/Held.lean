import BoxDescent.Input.Held
import BoxDescent.Proofs.ActiveSet

/-!
This module contains active sets as callers handle them, in the case that their data fit: `Held.Fits` says
which active set is meant, and what a search makes of that one is what it makes of the data.
-/

namespace BoxDescent

variable {α β : Type} {n : Nat}

theorem sized?_toArray (v : Vector β n) : sized? n v.toArray = some v := by
  unfold sized?
  rw [dif_pos v.size_toArray]

theorem place?_val (i : Fin n) : place? n i.val = some i := by
  have hsign : ¬(i.val : Int) < 0 := by omega
  unfold place?
  simp [hsign]

namespace Grid

theorem vector?_ofArray (v : Vector β n) : (ofArray v.toArray).vector? n = some v := by
  unfold vector? ofArray
  rw [if_pos (congrArg (fun k => [k]) v.size_toArray)]
  exact sized?_toArray v

theorem get?_ofArray (xs : Array β) (i : Nat) : (ofArray xs).get? [i] = xs[i]? := by
  unfold get? ofArray
  simp [offset, count]

theorem positions_singleton (n : Nat) : positions [n] = (List.range n).map fun i => [i] := by
  unfold positions positions
  rw [List.map_eq_flatMap]
  rfl

theorem filterMap_range (xs : List β) : (List.range xs.length).filterMap (fun i => xs[i]?) = xs := by
  have hmap : (List.range xs.length).map (fun i => xs[i]?) = xs.map some := by
    apply List.ext_getElem
    . simp
    . simp
  have hfilterMap := List.filterMap_map (f := fun i : Nat => xs[i]?) (g := id) (l := List.range xs.length)
  rw [hmap, List.filterMap_map] at hfilterMap
  simpa using hfilterMap.symm

theorem tabulate_eq_ofArray {f : List Nat → Option β} {v : Vector β n}
    (h : ∀ i : Fin n, f [i.val] = some v[i]) : tabulate [n] f = ofArray v.toArray := by
  have hentry : ∀ i ∈ List.range n, f [i] = v.toList[i]? := by
    intro i hi
    rw [List.mem_range] at hi
    rw [h ⟨i, hi⟩, ← getElem_val]
    simp [hi]
  have hrange := filterMap_range v.toList
  rw [Vector.length_toList] at hrange
  unfold tabulate
  rw [positions_singleton, List.filterMap_map]
  show Grid.mk [n] ((List.range n).filterMap fun i => f [i]).toArray = _
  rw [List.filterMap_congr hentry, hrange]
  unfold ofArray
  rw [v.size_toArray, Vector.toList, Array.toArray_toList]

theorem shape_ofArray (v : Vector β n) : (ofArray v.toArray).shape = [n] :=
  congrArg (fun k => [k]) v.size_toArray

theorem mapAt_ofArray {f : List Nat → β → β} {v w : Vector β n} (h : ∀ i : Fin n, f [i.val] v[i] = w[i]) :
    (ofArray v.toArray).mapAt f = ofArray w.toArray := by
  unfold mapAt
  rw [shape_ofArray]
  apply tabulate_eq_ofArray
  intro i
  rw [get?_ofArray, ← h i]
  simp

end Grid

namespace Held

/-- The data are the active set `a`. The held variables may be named in several ways. -/
structure Fits (h : Held α) (a : ActiveSet α n) : Prop where
  lower : h.lower = .ofArray a.bounds.lower.toArray
  upper : h.upper = .ofArray a.bounds.upper.toArray
  workingLower : h.workingLower = .ofArray a.working.lower.toArray
  workingUpper : h.workingUpper = .ofArray a.working.upper.toArray
  fixed : h.fixed = a.fixed.toArray
  indices : h.indices.filterMap (place? n) = a.indices

def ofActive (a : ActiveSet α n) : Held α :=
  { lower := .ofArray a.bounds.lower.toArray
    upper := .ofArray a.bounds.upper.toArray
    workingLower := .ofArray a.working.lower.toArray
    workingUpper := .ofArray a.working.upper.toArray
    fixed := a.fixed.toArray
    indices := a.indices.map fun i => (i.val : Int) }

theorem filterMap_place? (is : List (Fin n)) :
    (is.map fun i => (i.val : Int)).filterMap (place? n) = is := by
  have hplace : (place? n ∘ fun i : Fin n => (i.val : Int)) = some := by
    funext i
    exact place?_val i
  rw [List.filterMap_map, hplace, List.filterMap_some]

theorem fits_ofActive (a : ActiveSet α n) : (ofActive a).Fits a :=
  ⟨rfl, rfl, rfl, rfl, rfl, filterMap_place? a.indices⟩

namespace Fits

variable {h : Held α} {a : ActiveSet α n} (hfits : h.Fits a)
include hfits

theorem active? : h.active? n = some a := by
  have hupper : ∀ v : Vector (Option α) n,
      (Vector.ofFn fun i : Fin n => (Grid.ofArray v.toArray).entries.getD i none) = v := by
    intro v
    apply vector_ext
    intro i
    rw [getElem_vectorOfFn]
    simp [Grid.ofArray]
  unfold Held.active?
  rw [hfits.upper, hfits.lower, hfits.workingLower, hfits.workingUpper, hfits.fixed, hfits.indices,
    if_neg (fun hrank => hrank rfl)]
  simp only [Grid.vector?_ofArray, sized?_toArray, hupper]
  rfl

theorem size_upper : h.upper.entries.size = n := by
  rw [hfits.upper]
  exact a.bounds.upper.size_toArray

theorem withActive_eq (b : ActiveSet α n) (is : List (Fin n)) : h.withActive b is = { h with
    workingLower := .ofArray b.working.lower.toArray
    workingUpper := .ofArray b.working.upper.toArray
    fixed := b.fixed.toArray
    indices := h.indices ++ is.map fun i => (i.val : Int) } := by
  have hreplace : ∀ v w : Vector (Option α) n, (Grid.ofArray v.toArray).mapAt
      (fun i b => (i.head?.bind fun i => w[i]?).getD b) = .ofArray w.toArray := by
    intro v w
    apply Grid.mapAt_ofArray
    intro i
    simp
  unfold Held.withActive
  dsimp only
  rw [hfits.workingLower, hfits.workingUpper, hreplace, hreplace]

theorem withActive_self : h.withActive a [] = h := by
  rw [hfits.withActive_eq, List.map_nil, List.append_nil, ← hfits.workingLower, ← hfits.workingUpper,
    ← hfits.fixed]

theorem withActive {b : ActiveSet α n} {is : List (Fin n)} (hbounds : b.bounds = a.bounds)
    (hindices : b.indices = a.indices ++ is) : (h.withActive b is).Fits b := by
  rw [hfits.withActive_eq]
  refine ⟨?_, ?_, rfl, rfl, rfl, ?_⟩
  . rw [hbounds]
    exact hfits.lower
  . rw [hbounds]
    exact hfits.upper
  . show (h.indices ++ is.map fun i => (i.val : Int)).filterMap (place? n) = b.indices
    rw [hindices, List.filterMap_append, hfits.indices, filterMap_place?]

end Fits

end Held

end BoxDescent
