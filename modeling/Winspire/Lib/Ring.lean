import Mathlib.Data.List.Range
import Mathlib.Logic.Function.Basic
import Mathlib.Tactic.Cases

/-!
# Bounded queues on a ring

An array of `size` cells with a read index, a write index and a count. The two indices agree with
the count by construction, so that the queue is the list of its `count` cells from the read index.
-/

namespace Winspire

set_option autoImplicit false

structure Ring (α : Type) (size : Nat) where
  data : Nat → α
  rptr : Nat
  wptr : Nat
  count : Nat
  rptr_lt : rptr < size
  count_le : count ≤ size
  wptr_eq : wptr = (rptr + count) % size

namespace Ring

variable {α : Type} {size : Nat}

/-- The index behind `i`. -/
def next (size i : Nat) : Nat := if i + 1 = size then 0 else i + 1

theorem next_eq {i : Nat} (hi : i < size) : next size i = (i + 1) % size := by
  unfold next
  split
  · rename_i h
    rw [h, Nat.mod_self]
  · rename_i h
    rw [Nat.mod_eq_of_lt (by omega)]

theorem next_lt {i : Nat} (hi : i < size) : next size i < size := by
  unfold next
  split <;> omega

def empty (data : Nat → α) (h : 0 < size) : Ring α size :=
  ⟨data, 0, 0, 0, h, Nat.zero_le _, (Nat.mod_eq_of_lt h).symm⟩

def push (q : Ring α size) (b : α) : Ring α size :=
  if h : size ≤ q.count then q
  else
    { data := Function.update q.data q.wptr b
      rptr := q.rptr
      wptr := next size q.wptr
      count := q.count + 1
      rptr_lt := q.rptr_lt
      count_le := by omega
      wptr_eq := by
        have hpos : 0 < size := Nat.lt_of_le_of_lt (Nat.zero_le _) q.rptr_lt
        rw [q.wptr_eq, next_eq (Nat.mod_lt _ hpos), Nat.mod_add_mod, Nat.add_assoc] }

/-- The cell at the read index, which moves on; an empty queue stays as it is. -/
def pop (q : Ring α size) : Ring α size :=
  if h : q.count = 0 then q
  else
    { data := q.data
      rptr := next size q.rptr
      wptr := q.wptr
      count := q.count - 1
      rptr_lt := next_lt q.rptr_lt
      count_le := Nat.le_trans (Nat.sub_le _ _) q.count_le
      wptr_eq := by
        rw [next_eq q.rptr_lt, Nat.mod_add_mod, q.wptr_eq]
        congr 1
        omega }

def front (q : Ring α size) : α := q.data q.rptr

def last (q : Ring α size) : α := q.data (if q.rptr = 0 then size - 1 else q.rptr - 1)

def contents (q : Ring α size) : List α :=
  (List.range q.count).map fun i => q.data ((q.rptr + i) % size)

@[simp] theorem length_contents (q : Ring α size) : q.contents.length = q.count := by
  simp [contents]

theorem contents_eq_nil {q : Ring α size} (h : q.count = 0) : q.contents = [] := by
  simp [contents, h]

theorem index_ne {r c i : Nat} (hc : c < size) (hi : i < c) :
    (r + i) % size ≠ (r + c) % size := by
  intro h
  have hd := Nat.sub_mod_eq_zero_of_mod_eq h.symm
  rw [show r + c - (r + i) = c - i by omega, Nat.mod_eq_of_lt (by omega)] at hd
  omega

theorem push_full {q : Ring α size} (h : size ≤ q.count) (b : α) : q.push b = q := by
  simp [push, h]

theorem contents_push {q : Ring α size} (h : q.count < size) (b : α) :
    (q.push b).contents = q.contents ++ [b] := by
  have hold : ∀ i ∈ List.range q.count,
      Function.update q.data q.wptr b ((q.rptr + i) % size) = q.data ((q.rptr + i) % size) := by
    intro i hi
    have hne := index_ne (r := q.rptr) h (List.mem_range.mp hi)
    rw [← q.wptr_eq] at hne
    exact Function.update_of_ne hne _ _
  have hnew : Function.update q.data q.wptr b ((q.rptr + q.count) % size) = b := by
    rw [← q.wptr_eq, Function.update_self]
  simp only [push, Nat.not_le.mpr h, dite_false, contents, List.range_succ, List.map_append,
    List.map_cons, List.map_nil, hnew, List.map_congr_left hold]

theorem count_push (q : Ring α size) (b : α) : (q.push b).count = min (q.count + 1) size := by
  have hle := q.count_le
  unfold push
  split
  · omega
  · show q.count + 1 = _
    omega

theorem contents_pop {q : Ring α size} (h : 0 < q.count) :
    q.contents = q.front :: q.pop.contents := by
  obtain ⟨n, hn⟩ : ∃ n, q.count = n + 1 := ⟨q.count - 1, by omega⟩
  have hstep : ∀ i ∈ List.range n,
      q.data ((q.rptr + (i + 1)) % size) = q.data ((next size q.rptr + i) % size) := by
    intro i _
    rw [next_eq q.rptr_lt, Nat.mod_add_mod]
    congr 2
    omega
  have hhead : q.data ((q.rptr + 0) % size) = q.front := by
    rw [Nat.add_zero, Nat.mod_eq_of_lt q.rptr_lt, front]
  simp only [contents, pop, hn, Nat.succ_ne_zero, dite_false, List.range_succ_eq_map,
    List.map_cons, List.map_map, hhead, Nat.add_sub_cancel]
  congr 1
  exact List.map_congr_left hstep

def pushAll (q : Ring α size) (bs : List α) : Ring α size := bs.foldl push q

@[simp] theorem pushAll_nil (q : Ring α size) : q.pushAll [] = q := rfl

@[simp] theorem pushAll_cons (q : Ring α size) (b : α) (bs : List α) :
    q.pushAll (b :: bs) = (q.push b).pushAll bs := rfl

theorem pushAll_append (q : Ring α size) (bs cs : List α) :
    q.pushAll (bs ++ cs) = (q.pushAll bs).pushAll cs := List.foldl_append ..

theorem count_pushAll (q : Ring α size) (bs : List α) :
    (q.pushAll bs).count = min (q.count + bs.length) size := by
  induction bs generalizing q with
  | nil =>
    have hle := q.count_le
    rw [pushAll_nil, List.length_nil]
    omega
  | cons b bs ih =>
    rw [pushAll_cons, ih, count_push, List.length_cons]
    omega

theorem contents_pushAll {q : Ring α size} {bs : List α} (h : q.count + bs.length ≤ size) :
    (q.pushAll bs).contents = q.contents ++ bs := by
  induction bs generalizing q with
  | nil => simp
  | cons b bs ih =>
    rw [List.length_cons] at h
    have hroom : (q.push b).count + bs.length ≤ size := by
      rw [count_push]
      omega
    rw [pushAll_cons, ih hroom, contents_push (by omega), List.append_assoc,
      List.singleton_append]

end Ring

end Winspire
