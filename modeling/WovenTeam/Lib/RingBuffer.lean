import Mathlib.Data.List.DropRight

/-!
# Ring buffers

A ring has `limit` slots and counts what was put into it: the element put in as number `n` goes to
slot `n % limit`, over the one that was there. `unroll` reads the slots oldest first. Of all that
was put into an empty ring it gives the last `limit` elements in their order (`unroll_pushAll`),
whatever the slots held at first.
-/

structure RingBuffer (α : Type) (limit : Nat) where
  slots : Vector α limit
  seen : Nat

namespace RingBuffer

variable {α : Type} {limit : Nat}

def init (limit : Nat) (blank : α) : RingBuffer α limit where
  slots := .replicate limit blank
  seen := 0

def push (ring : RingBuffer α limit) (x : α) : RingBuffer α limit where
  slots := ring.slots.setIfInBounds (ring.seen % limit) x
  seen := ring.seen + 1

def pushAll (ring : RingBuffer α limit) (xs : List α) : RingBuffer α limit := xs.foldl push ring

/-- How many slots are in use. -/
def count (ring : RingBuffer α limit) : Nat := if ring.seen < limit then ring.seen else limit

/-- The slot of the oldest element. -/
def start (ring : RingBuffer α limit) : Nat := if ring.seen < limit then 0 else ring.seen % limit

def unroll (ring : RingBuffer α limit) : List α :=
  (List.range ring.count).filterMap fun index => ring.slots[(ring.start + index) % limit]?

/-! ## The invariant of the slots -/

/-- The ring has seen `xs`: each of the last `limit` of them is in its slot. -/
structure Holds (ring : RingBuffer α limit) (xs : List α) : Prop where
  seen : ring.seen = xs.length
  slots : ∀ n < xs.length, xs.length ≤ n + limit → ring.slots[n % limit]? = xs[n]?

theorem holds_init (limit : Nat) (blank : α) : (init limit blank).Holds [] where
  seen := rfl
  slots := fun _ hn => absurd hn (Nat.not_lt_zero _)

/-- Two of `limit` elements in a row are in different slots. -/
theorem slot_ne {m n : Nat} (hlt : m < n) (hle : n < m + limit) : m % limit ≠ n % limit := by
  intro heq
  have hdvd : limit ∣ n - m := Nat.dvd_of_mod_eq_zero (Nat.sub_mod_eq_zero_of_mod_eq heq.symm)
  have := Nat.le_of_dvd (by omega) hdvd
  omega

theorem Holds.push {ring : RingBuffer α limit} {xs : List α} (h : ring.Holds xs) (x : α) :
    (ring.push x).Holds (xs ++ [x]) where
  seen := by simp [RingBuffer.push, h.seen]
  slots := by
    intro n hn hlimit
    rw [List.length_append, List.length_singleton] at hn hlimit
    have hpos : 0 < limit := by omega
    simp only [RingBuffer.push, h.seen, Vector.getElem?_setIfInBounds]
    rcases Nat.lt_succ_iff_lt_or_eq.mp hn with hlt | rfl
    · -- an older element: the new one goes to another slot
      have hne : xs.length % limit ≠ n % limit := (slot_ne hlt (by omega)).symm
      rw [if_neg hne, h.slots n hlt (by omega), List.getElem?_append_left hlt]
    · simp [Nat.mod_lt _ hpos]

theorem Holds.pushAll {ring : RingBuffer α limit} {xs : List α} (h : ring.Holds xs) (ys : List α) :
    (ring.pushAll ys).Holds (xs ++ ys) := by
  induction ys generalizing ring xs with
  | nil => simpa [RingBuffer.pushAll] using h
  | cons y ys ih =>
    have := ih (h.push y)
    rwa [List.append_assoc, List.singleton_append] at this

/-! ## Unrolling -/

section unroll

variable {ring : RingBuffer α limit} {xs : List α}

theorem Holds.count_eq (h : ring.Holds xs) : ring.count = min limit xs.length := by
  rw [count, h.seen]
  split <;> omega

/-- The slot read as number `index` is that of the element `index` behind the oldest. -/
theorem Holds.slot_unrolled (h : ring.Holds xs) {index : Nat} (hindex : index < ring.count) :
    ring.slots[(ring.start + index) % limit]? = xs[xs.length - ring.count + index]? := by
  have hcount := h.count_eq
  have hslot : (ring.start + index) % limit = (xs.length - ring.count + index) % limit := by
    rw [hcount, start, h.seen]
    split
    · rw [min_eq_right (by omega), Nat.sub_self]
    · -- the ring is full: its start is a whole turn behind the oldest element
      rw [min_eq_left (by omega), Nat.mod_add_mod]
      have hturn : xs.length + index = xs.length - limit + index + limit := by omega
      rw [hturn, Nat.add_mod_right]
  rw [hslot]
  exact h.slots _ (by omega) (by omega)

theorem filterMap_getElem?_range (xs : List α) (n k : Nat) :
    (List.range k).filterMap (fun index => xs[n + index]?) = (xs.drop n).take k := by
  induction k with
  | zero => simp
  | succ k ih =>
    have hlast : [k].filterMap (fun index => xs[n + index]?) = xs[n + k]?.toList := by
      cases h : xs[n + k]? <;> simp [h]
    rw [List.range_succ, List.filterMap_append, ih, List.take_add_one, List.getElem?_drop, hlast]

theorem Holds.unroll (h : ring.Holds xs) : ring.unroll = xs.rtake limit := by
  have hcount := h.count_eq
  have hread : ring.unroll =
      (List.range ring.count).filterMap fun index => xs[xs.length - ring.count + index]? :=
    List.filterMap_congr fun index hindex => h.slot_unrolled (List.mem_range.mp hindex)
  rw [hread, filterMap_getElem?_range, List.take_of_length_le (by simp; omega), List.rtake]
  congr 1
  omega

end unroll

/-- **An empty ring that was given `xs` unrolls to the last `limit` of them.** -/
theorem unroll_pushAll (limit : Nat) (blank : α) (xs : List α) :
    ((init limit blank).pushAll xs).unroll = xs.rtake limit :=
  ((holds_init limit blank).pushAll xs).unroll

theorem count_pushAll (limit : Nat) (blank : α) (xs : List α) :
    ((init limit blank).pushAll xs).count = min limit xs.length :=
  ((holds_init limit blank).pushAll xs).count_eq

end RingBuffer
