import Mathlib.Tactic.Ring

/-!
# Values in memory

The representation of values of a fixed size as bytes, little-endian, and what is read back of it; the combinators
build the layout of a structure out of those of its fields.
-/

namespace PlantOS.Lib

/-- A layout: every value has `size` bytes, from which it is read back. -/
structure Codec (α : Type) where
  size : ℕ
  encode : α → List UInt8
  decode : List UInt8 → α
  length_encode : ∀ a, (encode a).length = size
  decode_encode : ∀ a, decode (encode a) = a

/-! ### Numbers -/

/-- The lowest `n` bytes of a number -/
def bytesOf : ℕ → ℕ → List UInt8
  | 0, _ => []
  | n + 1, x => UInt8.ofNat x :: bytesOf n (x / 256)

def numberOf : List UInt8 → ℕ
  | [] => 0
  | b :: l => b.toNat + 256 * numberOf l

lemma bytesOf_length (n x : ℕ) : (bytesOf n x).length = n := by
  induction n generalizing x with
  | zero => rfl
  | succ n ih => rw [bytesOf, List.length_cons, ih]

lemma numberOf_bytesOf (n x : ℕ) : numberOf (bytesOf n x) = x % 256 ^ n := by
  induction n generalizing x with
  | zero => simp [bytesOf, numberOf, Nat.mod_one]
  | succ n ih =>
    rw [bytesOf, numberOf, ih, Nat.pow_succ', Nat.mod_mul]
    rfl

namespace Codec

variable {α β : Type}

/-- A number of `n` bytes -/
def bits (n : ℕ) : Codec (BitVec (8 * n)) where
  size := n
  encode x := bytesOf n x.toNat
  decode l := BitVec.ofNat (8 * n) (numberOf l)
  length_encode x := bytesOf_length n x.toNat
  decode_encode x := by
    have hlt : x.toNat < 256 ^ n := by
      have hx := x.isLt
      rwa [Nat.pow_mul] at hx
    rw [numberOf_bytesOf, Nat.mod_eq_of_lt hlt]
    exact (BitVec.ofNat_toNat _ x).trans (BitVec.setWidth_eq x)

def bytes (n : ℕ) : Codec (Vector UInt8 n) where
  size := n
  encode v := v.toList
  decode l := Vector.ofFn fun i => l.getD i 0
  length_encode v := v.length_toList
  decode_encode v := by
    ext i hi
    simp

def pad (n : ℕ) : Codec Unit where
  size := n
  encode _ := List.replicate n 0
  decode _ := ()
  length_encode _ := List.length_replicate
  decode_encode _ := rfl

def seq (c : Codec α) (d : Codec β) : Codec (α × β) where
  size := c.size + d.size
  encode x := c.encode x.1 ++ d.encode x.2
  decode l := (c.decode (l.take c.size), d.decode (l.drop c.size))
  length_encode x := by rw [List.length_append, c.length_encode, d.length_encode]
  decode_encode x := by
    have hlen := c.length_encode x.1
    rw [List.take_left' hlen, List.drop_left' hlen, c.decode_encode, d.decode_encode]

def via (c : Codec α) (fields : β → α) (make : α → β) (h : ∀ b, make (fields b) = b) : Codec β where
  size := c.size
  encode b := c.encode (fields b)
  decode l := make (c.decode l)
  length_encode b := c.length_encode (fields b)
  decode_encode b := by rw [c.decode_encode, h]

end Codec

def load (memory : ℕ → UInt8) (address n : ℕ) : List UInt8 := (List.range n).map fun i => memory (address + i)

def store (memory : ℕ → UInt8) (address : ℕ) (l : List UInt8) : ℕ → UInt8 := fun i =>
  if address ≤ i ∧ i - address < l.length then l.getD (i - address) 0 else memory i

lemma load_store (memory : ℕ → UInt8) (address : ℕ) (l : List UInt8) : load (store memory address l) address l.length = l := by
  refine List.ext_getElem (by simp [load]) fun i _ hi => ?_
  simp [load, store, hi]

lemma store_of_disjoint (memory : ℕ → UInt8) {address i : ℕ} {l : List UInt8} (h : i < address ∨ address + l.length ≤ i) :
    store memory address l i = memory i := by
  unfold store
  rw [if_neg (by omega)]

lemma load_congr (memory : ℕ → UInt8) {memory' : ℕ → UInt8} {address n : ℕ}
    (h : ∀ i, address ≤ i → i < address + n → memory' i = memory i) : load memory' address n = load memory address n := by
  refine List.map_congr_left fun i hi => ?_
  have hlt := List.mem_range.mp hi
  exact h _ (by omega) (by omega)

namespace Codec

variable {α : Type}

/-- **A value is read back from where it has been written.** -/
theorem decode_load_store (c : Codec α) (memory : ℕ → UInt8) (address : ℕ) (a : α) :
    c.decode (load (store memory address (c.encode a)) address c.size) = a := by
  rw [← c.length_encode a, load_store, c.decode_encode]

end Codec

end PlantOS.Lib
