/-
  GidsStack.Lib.RowMajor

  Two-dimensional arrays in row-major order.

  An array of width `w` is its flat list of elements, with a proof that the list has
  `rows * w` of them; a view of the same elements at another width (`Rows.view`) keeps the
  list. Everything that builds an array piece by piece (rows cut to a width, rows padded to
  a width, rows gathered from a flat memory, arrays laid one behind the other) is a
  `flatMap` of pieces of one length, so all of it is read through one lemma,
  `getElem?_flatMap_of_length`.
-/

import Mathlib

namespace GidsStack.RowMajor

variable {α β : Type}

/-! ## Lists of equally long pieces -/

theorem length_flatMap_of_length {f : β → List α} {w : Nat} {l : List β}
    (h : ∀ b ∈ l, (f b).length = w) : (l.flatMap f).length = l.length * w := by
  rw [List.length_flatMap, List.map_congr_left h, List.map_const', List.sum_replicate_nat]

/-- Element `j` of piece `i`. -/
theorem getElem?_flatMap_of_length {f : β → List α} {w : Nat} {l : List β}
    (h : ∀ b ∈ l, (f b).length = w) {i j : Nat} (hj : j < w) :
    (l.flatMap f)[i * w + j]? = l[i]?.bind fun b => (f b)[j]? := by
  induction l generalizing i with
  | nil => rw [List.flatMap_nil, List.getElem?_nil, List.getElem?_nil, Option.bind_none]
  | cons b l ih =>
    have hb : (f b).length = w := h b List.mem_cons_self
    rw [List.flatMap_cons]
    cases i with
    | zero =>
      rw [Nat.zero_mul, Nat.zero_add, List.getElem?_append_left (by omega),
        List.getElem?_cons_zero, Option.bind_some]
    | succ i =>
      have hle : w ≤ (i + 1) * w + j := by
        rw [Nat.succ_mul]
        omega
      have hsub : (i + 1) * w + j - w = i * w + j := by
        rw [Nat.succ_mul]
        omega
      rw [List.getElem?_append_right (by rw [hb]; exact hle), hb, hsub,
        ih fun c hc => h c (List.mem_cons_of_mem b hc), List.getElem?_cons_succ]

/-! ## Arrays -/

/-- An array of width `w`. -/
@[ext]
structure Rows (α : Type) (w : Nat) where
  rows : Nat
  data : List α
  size : data.length = rows * w

namespace Rows

variable {w v : Nat}

/-- The element in row `i` and column `j`; meant for `j < w`. -/
def at? (a : Rows α w) (i j : Nat) : Option α :=
  a.data[i * w + j]?

/-- Row `i`. -/
def row (a : Rows α w) (i : Nat) : List α :=
  (a.data.drop (i * w)).take w

theorem cell_lt {n w i j : Nat} (hi : i < n) (hj : j < w) : i * w + j < n * w :=
  calc i * w + j < i * w + w := by omega
    _ = (i + 1) * w := (Nat.succ_mul i w).symm
    _ ≤ n * w := Nat.mul_le_mul_right w hi

theorem row_length (a : Rows α w) {i : Nat} (hi : i < a.rows) : (a.row i).length = w := by
  have h : (i + 1) * w ≤ a.rows * w := Nat.mul_le_mul_right w hi
  rw [Nat.succ_mul] at h
  rw [row, List.length_take, List.length_drop, a.size]
  omega

theorem row_getElem? (a : Rows α w) (i : Nat) {j : Nat} (hj : j < w) :
    (a.row i)[j]? = a.at? i j := by
  rw [row, List.getElem?_take_of_lt hj, List.getElem?_drop, at?]

/-- The same elements in rows of another width. -/
def view (a : Rows α w) (n v : Nat) (h : a.rows * w = n * v) : Rows α v where
  rows := n
  data := a.data
  size := a.size.trans h

/-- The rows `piece i`, `i < n`. -/
def ofPieces (n : Nat) (piece : Nat → List α) (h : ∀ i < n, (piece i).length = w) : Rows α w where
  rows := n
  data := (List.range n).flatMap piece
  size := by
    rw [length_flatMap_of_length fun i hi => h i (List.mem_range.mp hi), List.length_range]

theorem ofPieces_at? {n : Nat} {piece : Nat → List α} (h : ∀ i < n, (piece i).length = w)
    {i j : Nat} (hi : i < n) (hj : j < w) : (ofPieces n piece h).at? i j = (piece i)[j]? := by
  rw [at?, ofPieces, getElem?_flatMap_of_length (fun i hi => h i (List.mem_range.mp hi)) hj,
    List.getElem?_range hi, Option.bind_some]

/-- The first `v` columns. -/
def cut (a : Rows α w) (v : Nat) (h : v ≤ w) : Rows α v :=
  ofPieces a.rows (fun i => (a.row i).take v) fun i hi => by
    rw [List.length_take, a.row_length hi]
    omega

theorem cut_at? (a : Rows α w) (h : v ≤ w) {i j : Nat} (hi : i < a.rows) (hj : j < v) :
    (a.cut v h).at? i j = a.at? i j := by
  rw [cut, ofPieces_at? _ hi hj, List.getElem?_take_of_lt hj, a.row_getElem? i (by omega)]

/-- Every row filled up with `fill` to the width `v`. -/
def pad (a : Rows α w) (v : Nat) (fill : α) (h : w ≤ v) : Rows α v :=
  ofPieces a.rows (fun i => a.row i ++ List.replicate (v - w) fill) fun i hi => by
    rw [List.length_append, a.row_length hi, List.length_replicate]
    omega

theorem pad_at? (a : Rows α w) (fill : α) (h : w ≤ v) {i j : Nat} (hi : i < a.rows) (hj : j < w) :
    (a.pad v fill h).at? i j = a.at? i j := by
  have hlen : j < (a.row i).length := by
    rw [a.row_length hi]
    exact hj
  rw [pad, ofPieces_at? _ hi (by omega), List.getElem?_append_left hlen, a.row_getElem? i hj]

/-- The rows `idx` of a flat memory that is divided into rows of width `w`. -/
def gather (mem : Nat → α) (w : Nat) (idx : List Nat) : Rows α w where
  rows := idx.length
  data := idx.flatMap fun r => (List.range w).map fun j => mem (r * w + j)
  size := length_flatMap_of_length fun r _ => by rw [List.length_map, List.length_range]

@[simp]
theorem gather_rows (mem : Nat → α) (w : Nat) (idx : List Nat) :
    (gather mem w idx).rows = idx.length := rfl

theorem gather_at? (mem : Nat → α) {idx : List Nat} {i j r : Nat} (hi : idx[i]? = some r)
    (hj : j < w) : (gather mem w idx).at? i j = some (mem (r * w + j)) := by
  rw [at?, gather, getElem?_flatMap_of_length
    (fun r _ => by rw [List.length_map, List.length_range]) hj, hi, Option.bind_some,
    List.getElem?_map, List.getElem?_range hj, Option.map_some]

/-! ### Arrays laid one behind the other -/

/-- The number of rows of all the arrays together. -/
def totalRows (as : List (Rows α w)) : Nat :=
  (as.map rows).sum

@[simp]
theorem totalRows_nil : totalRows ([] : List (Rows α w)) = 0 := rfl

@[simp]
theorem totalRows_cons (a : Rows α w) (as : List (Rows α w)) :
    totalRows (a :: as) = a.rows + totalRows as := by
  rw [totalRows, List.map_cons, List.sum_cons, totalRows]

/-- The arrays one behind the other. -/
def concat (as : List (Rows α w)) : Rows α w where
  rows := totalRows as
  data := as.flatMap data
  size := by
    induction as with
    | nil => rw [List.flatMap_nil, totalRows_nil, List.length_nil, Nat.zero_mul]
    | cons a as ih =>
      rw [List.flatMap_cons, List.length_append, a.size, ih, totalRows_cons, Nat.add_mul]

/-- An element of one of the arrays, behind the rows of those in front of it. -/
theorem concat_getElem? {as front back : List (Rows α w)} {a : Rows α w}
    (has : as = front ++ a :: back) {n : Nat} (hn : n < a.data.length) :
    (concat as).data[totalRows front * w + n]? = a.data[n]? := by
  have hfront : (front.flatMap data).length = totalRows front * w := (concat front).size
  have hdata : (concat as).data = front.flatMap data ++ (a.data ++ back.flatMap data) := by
    show as.flatMap data = _
    rw [has, List.flatMap_append, List.flatMap_cons]
  rw [hdata, List.getElem?_append_right (by omega), hfront, Nat.add_sub_cancel_left,
    List.getElem?_append_left hn]

end Rows

end GidsStack.RowMajor
