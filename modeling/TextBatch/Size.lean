import TextBatch.Error

/-!
# Machine-sized totals

Sizes of data held in memory are machine-sized counts, and `usizeMax` is the largest. Before it
allocates, the library adds sizes up in such a count and refuses a total that would pass the
largest, rather than let it wrap around: `addSize` adds one size, and `sumSizes` sizes a list of
items in turn, each of which may be refused, and adds every size to a running total.

A refusal is either the total's or one item's own (`sumSizes_eq_error`).
-/

namespace TextBatch

/-- The largest machine-sized count, `2 ^ 64 - 1`: no size, offset or total of bytes held in
memory is larger. -/
def usizeMax : Nat := 18446744073709551615

/-- The running total `total` with `size` more bytes, refused when it would not be a
machine-sized count; `function` names the caller in the refusal. -/
def addSize (function : String) (total size : Nat) : Except Error Nat :=
  if total + size > usizeMax then .error (.addressSpace function) else .ok (total + size)

/-- Sizes `xs` in turn by `size`, which may refuse an item, and adds each size to the running
total `total`. -/
def sumSizes {α : Type} (function : String) (size : α → Except Error Nat) :
    Nat → List α → Except Error Nat
  | total, [] => .ok total
  | total, x :: xs => do
    let total ← addSize function total (← size x)
    sumSizes function size total xs

section sumSizes

variable {α : Type} {function : String} {size : α → Except Error Nat} {xs : List α}

/-- The running total after one item sized `s`. -/
theorem sumSizes_cons_of_ok {x : α} {s : Nat} (hx : size x = .ok s) (total : Nat) :
    sumSizes function size total (x :: xs) =
      if total + s > usizeMax then .error (.addressSpace function)
      else sumSizes function size (total + s) xs := by
  simp only [sumSizes, hx, addSize, bind, Except.bind]
  by_cases hs : total + s > usizeMax <;> simp [hs]

/-- A running total that is answered sized every item. -/
theorem sized_of_sumSizes_eq_ok {total t : Nat} (h : sumSizes function size total xs = .ok t) :
    ∀ x ∈ xs, ∃ s, size x = .ok s := by
  induction xs generalizing total with
  | nil => simp
  | cons x xs ih =>
    cases hx : size x with
    | error e => simp [sumSizes, hx, bind, Except.bind] at h
    | ok s =>
      rw [sumSizes_cons_of_ok hx] at h
      split at h
      · cases h
      · intro y hy
        rcases List.mem_cons.mp hy with rfl | hy
        · exact ⟨s, hx⟩
        · exact ih h y hy

/-- A running total over an item that is refused is refused as well. -/
theorem sumSizes_eq_error_of_mem {x : α} (hx : x ∈ xs) {e : Error} (he : size x = .error e)
    (total : Nat) : ∃ e', sumSizes function size total xs = .error e' := by
  cases h : sumSizes function size total xs with
  | error e' => exact ⟨e', rfl⟩
  | ok t =>
    obtain ⟨s, hs⟩ := sized_of_sumSizes_eq_ok h x hx
    rw [hs] at he
    cases he

/-- A refused running total is refused for its size, or by one item's own refusal. -/
theorem sumSizes_eq_error {total : Nat} {e : Error} (h : sumSizes function size total xs = .error e) :
    e = .addressSpace function ∨ ∃ x ∈ xs, size x = .error e := by
  induction xs generalizing total with
  | nil => cases h
  | cons x xs ih =>
    cases hx : size x with
    | error e' =>
      simp only [sumSizes, hx, bind, Except.bind] at h
      cases h
      exact .inr ⟨x, List.mem_cons_self, hx⟩
    | ok s =>
      rw [sumSizes_cons_of_ok hx] at h
      split at h
      · cases h
        exact .inl rfl
      · obtain hsize | ⟨y, hy, hye⟩ := ih h
        · exact .inl hsize
        · exact .inr ⟨y, List.mem_cons_of_mem x hy, hye⟩

end sumSizes

end TextBatch
