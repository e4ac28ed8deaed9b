import Mathlib.Algebra.Group.Nat.Defs
import Mathlib.Tactic.SplitIfs

/-!
# The forms of UTF-8

The bytes of a character that takes more than one: a lead byte with the number of the bytes and the highest bits, and
continuation bytes with six bits each. What stands in the first bytes is the character without its last bits, and a
range check tells whether a character goes on with them. Characters and their encoding are those of Lean.
-/

namespace PlantOS.Lib.Utf8

/-! ### Forms -/

def lead : ℕ → ℕ
  | 2 => 0xc0
  | 3 => 0xe0
  | _ => 0xf0

def least : ℕ → ℕ
  | 2 => 0x80
  | 3 => 0x800
  | _ => 0x10000

def bound : ℕ → ℕ
  | 2 => 0x800
  | 3 => 0x10000
  | _ => 0x110000

/-- The first `k` of `n` bytes, with the bits `v`. -/
def form (n : ℕ) : ℕ → ℕ → List UInt8
  | 0, _ => []
  | 1, v => [UInt8.ofNat (lead n + v)]
  | k + 2, v => form n (k + 1) (v / 64) ++ [UInt8.ofNat (0x80 + v % 64)]

variable {n k v w : ℕ}

lemma form_succ (hk : 1 ≤ k) : form n (k + 1) v = form n k (v / 64) ++ [UInt8.ofNat (0x80 + v % 64)] := by
  obtain ⟨k, rfl⟩ : ∃ j, k = j + 1 := ⟨k - 1, by omega⟩
  rfl

lemma length_form (n k v : ℕ) : (form n k v).length = k := by
  induction k generalizing v with
  | zero => rfl
  | succ k ih =>
    cases k with
    | zero => rfl
    | succ k => rw [form_succ (by omega), List.length_append, ih, List.length_singleton]

lemma take_form (hk : 1 ≤ k) (j v : ℕ) : (form n (k + j) v).take k = form n k (v / 64 ^ j) := by
  induction j generalizing v with
  | zero => simp [List.take_of_length_le (Nat.le_of_eq (length_form n k v))]
  | succ j ih =>
    rw [← Nat.add_assoc, form_succ (by omega), List.take_append_of_le_length, ih, Nat.div_div_eq_div_mul, Nat.pow_succ']
    rw [length_form]
    omega

lemma toNat_ofNat {x : ℕ} (hx : x < 256) : (UInt8.ofNat x).toNat = x := by
  rw [UInt8.toNat_ofNat', Nat.mod_eq_of_lt hx]

def room : ℕ → ℕ
  | 2 => 32
  | 3 => 16
  | _ => 8

lemma lead_add_room (n : ℕ) : 0xc0 ≤ lead n ∧ lead n + room n ≤ 0xf8 := by
  unfold lead room
  split <;> decide

def Fits (n k v : ℕ) : Prop := v / 64 ^ (k - 1) < room n

lemma Fits.div (hk : 1 ≤ k) (h : Fits n (k + 1) v) : Fits n k (v / 64) := by
  unfold Fits at *
  obtain ⟨k, rfl⟩ : ∃ j, k = j + 1 := ⟨k - 1, by omega⟩
  rwa [Nat.add_sub_cancel, Nat.pow_succ', ← Nat.div_div_eq_div_mul] at h

lemma form_injective (hk : 1 ≤ k) (hv : Fits n k v) (hw : Fits n k w) (h : form n k v = form n k w) : v = w := by
  induction k generalizing v w with
  | zero => omega
  | succ k ih =>
    rcases Nat.eq_zero_or_pos k with rfl | hpos
    · unfold Fits at hv hw
      simp only [Nat.zero_add, Nat.sub_self, Nat.pow_zero, Nat.div_one] at hv hw
      have hroom := lead_add_room n
      have hbyte := congrArg UInt8.toNat (List.singleton_inj.mp h)
      rw [toNat_ofNat (by omega), toNat_ofNat (by omega)] at hbyte
      omega
    · rw [form_succ hpos, form_succ hpos] at h
      obtain ⟨hinit, hlast⟩ := List.append_inj' h rfl
      have hdiv := ih hpos (hv.div hpos) (hw.div hpos) hinit
      have hbyte := congrArg UInt8.toNat (List.singleton_inj.mp hlast)
      rw [toNat_ofNat (by omega), toNat_ofNat (by omega)] at hbyte
      omega

lemma form_push (hk : 1 ≤ k) {b : UInt8} (hb : 0x80 ≤ b.toNat) (hb' : b.toNat < 0xc0) :
    form n k v ++ [b] = form n (k + 1) (v * 64 + b.toNat % 64) := by
  have hdiv : (v * 64 + b.toNat % 64) / 64 = v := by omega
  have hbyte : 0x80 + (v * 64 + b.toNat % 64) % 64 = b.toNat := by omega
  rw [form_succ hk, hdiv, hbyte, UInt8.ofNat_toNat]

lemma continuation_of_mem {b : UInt8} (h : b ∈ (form n k v).tail) : 0x80 ≤ b.toNat ∧ b.toNat < 0xc0 := by
  induction k generalizing v with
  | zero => cases h
  | succ k ih =>
    rcases Nat.eq_zero_or_pos k with rfl | hpos
    · cases h
    · have hne : form n k (v / 64) ≠ [] := by
        intro hnil
        have hlen := length_form n k (v / 64)
        rw [hnil] at hlen
        exact Nat.ne_of_lt hpos hlen
      rw [form_succ hpos, List.tail_append_of_ne_nil hne, List.mem_append, List.mem_singleton] at h
      obtain h | rfl := h
      · exact ih h
      · rw [toNat_ofNat (by omega)]
        omega

lemma le_of_mem_form {b : UInt8} (hv : Fits n k v) (h : b ∈ form n k v) : 0x80 ≤ b.toNat := by
  induction k generalizing v with
  | zero => cases h
  | succ k ih =>
    rcases Nat.eq_zero_or_pos k with rfl | hpos
    · obtain rfl := List.mem_singleton.mp h
      unfold Fits at hv
      simp only [Nat.zero_add, Nat.sub_self, Nat.pow_zero, Nat.div_one] at hv
      have hroom := lead_add_room n
      rw [toNat_ofNat (by omega)]
      omega
    · rw [form_succ hpos, List.mem_append, List.mem_singleton] at h
      obtain h | rfl := h
      · exact ih (hv.div hpos) h
      · rw [toNat_ofNat (by omega)]
        omega

/-! ### Characters -/

def size (v : ℕ) : ℕ := if v < 0x80 then 1 else if v < 0x800 then 2 else if v < 0x10000 then 3 else 4

lemma size_eq_iff (hv : v < 0x110000) (hn : 2 ≤ n) (hn' : n ≤ 4) : size v = n ↔ least n ≤ v ∧ v < bound n := by
  obtain rfl | rfl | rfl : n = 2 ∨ n = 3 ∨ n = 4 := by omega
  all_goals
    simp only [size, least, bound]
    split_ifs <;> omega

lemma size_le (v : ℕ) : 1 ≤ size v ∧ size v ≤ 4 := by
  unfold size
  split_ifs <;> omega

lemma char_lt (c : Char) : c.toNat < 0x110000 := by
  obtain h | h := c.valid
  · exact Nat.lt_trans h (by omega)
  · exact h.2

lemma encode_ascii {c : Char} (h : c.toNat < 0x80) : String.utf8EncodeChar c = [UInt8.ofNat c.toNat] := by
  have hle : c.val.toNat ≤ 0x7f := Nat.le_of_lt_succ h
  unfold String.utf8EncodeChar
  rw [if_pos hle]
  rfl

lemma encode_eq {c : Char} (h : 0x80 ≤ c.toNat) :
    String.utf8EncodeChar c = form (size c.toNat) (size c.toNat) c.toNat := by
  have hlt := char_lt c
  change 0x80 ≤ c.val.toNat at h
  change c.val.toNat < 0x110000 at hlt
  change _ = form (size c.val.toNat) (size c.val.toNat) c.val.toNat
  unfold String.utf8EncodeChar
  generalize c.val.toNat = v at *
  dsimp only
  rw [if_neg (show ¬v ≤ 0x7f by omega)]
  by_cases h2 : v ≤ 0x7ff
  · have hsize : size v = 2 := by
      unfold size
      rw [if_neg (by omega), if_pos (by omega)]
    rw [if_pos h2, hsize]
    simp only [form, lead, List.nil_append, List.cons_append]
    rw [Nat.mod_eq_of_lt (show v / 64 < 0x20 by omega), Nat.add_comm, Nat.add_comm (v % 64)]
  · rw [if_neg h2]
    by_cases h3 : v ≤ 0xffff
    · have hsize : size v = 3 := by
        unfold size
        rw [if_neg (by omega), if_neg (by omega), if_pos (by omega)]
      rw [if_pos h3, hsize]
      simp only [form, lead, List.nil_append, List.cons_append, Nat.div_div_eq_div_mul, Nat.reduceMul]
      rw [Nat.mod_eq_of_lt (show v / 4096 < 0x10 by omega), Nat.add_comm, Nat.add_comm (v % 64), Nat.add_comm (v / 64 % 64)]
    · have hsize : size v = 4 := by
        unfold size
        rw [if_neg (by omega), if_neg (by omega), if_neg (by omega)]
      rw [if_neg h3, hsize]
      simp only [form, lead, List.nil_append, List.cons_append, Nat.div_div_eq_div_mul, Nat.reduceMul]
      rw [Nat.mod_eq_of_lt (show v / 262144 < 8 by omega), Nat.add_comm, Nat.add_comm (v % 64),
        Nat.add_comm (v / 64 % 64), Nat.add_comm (v / 4096 % 64)]

lemma fits_self {v : ℕ} (hv : v < 0x110000) (h : 0x80 ≤ v) : Fits (size v) (size v) v := by
  have hsize := (size_eq_iff hv (n := size v) ?_ (size_le v).2).mp rfl
  · obtain ⟨hsm, hlg⟩ : 2 ≤ size v ∧ size v ≤ 4 := ⟨by unfold size; split_ifs <;> omega, (size_le v).2⟩
    unfold Fits
    generalize size v = n at *
    obtain rfl | rfl | rfl : n = 2 ∨ n = 3 ∨ n = 4 := by omega
    all_goals
      simp only [bound, room] at *
      omega
  · unfold size
    split_ifs <;> omega

lemma take_encode {c : Char} (h : 0x80 ≤ c.toNat) (hk : 1 ≤ k) (hle : k ≤ size c.toNat) :
    (String.utf8EncodeChar c).take k = form (size c.toNat) k (c.toNat / 64 ^ (size c.toNat - k)) := by
  have htake := take_form (n := size c.toNat) hk (size c.toNat - k) c.toNat
  rwa [Nat.add_sub_cancel' hle, ← encode_eq h] at htake

/-! ### Beginnings of characters -/

/-- A character with `n` bytes has the bits `v` in front of the last `r` bytes. -/
def Reach (n r v : ℕ) : Prop := ∃ c : Char, size c.toNat = n ∧ c.toNat / 64 ^ r = v

lemma exists_char {x : ℕ} (h : x.isValidChar) : ∃ c : Char, c.toNat = x := ⟨Char.ofNatAux x h, rfl⟩

lemma reach_iff_exists {r : ℕ} (hn : 2 ≤ n) (hn' : n ≤ 4) :
    Reach n r v ↔ ∃ x : ℕ, x.isValidChar ∧ least n ≤ x ∧ x < bound n ∧ x / 64 ^ r = v := by
  constructor
  · rintro ⟨c, hsize, hdiv⟩
    obtain ⟨hleas, hbd⟩ := (size_eq_iff (char_lt c) hn hn').mp hsize
    exact ⟨c.toNat, c.valid, hleas, hbd, hdiv⟩
  · rintro ⟨x, hval, hleas, hbd, hdiv⟩
    obtain ⟨c, rfl⟩ := exists_char hval
    exact ⟨c, (size_eq_iff (char_lt c) hn hn').mpr ⟨hleas, hbd⟩, hdiv⟩

/-- **The range check.** The numbers with the bits `v` in front are an interval; one of them is a character of this
size unless all are too small, too large or surrogates. -/
lemma reach_iff {r : ℕ} (hn : 2 ≤ n) (hn' : n ≤ 4) (hr : r < n) (hv : Fits n (n - r) v) :
    Reach n r v ↔ ¬(v * 64 ^ r + (64 ^ r - 1) < least n ∨ v * 64 ^ r > 0x10ffff ∨
      (v * 64 ^ r ≥ 0xd800 ∧ v * 64 ^ r + (64 ^ r - 1) ≤ 0xdfff)) := by
  rw [reach_iff_exists hn hn']
  unfold Nat.isValidChar
  unfold Fits at hv
  constructor
  · rintro ⟨x, hval, hleas, hbd, rfl⟩
    have hlow : x / 64 ^ r * 64 ^ r ≤ x := Nat.div_mul_le_self _ _
    have hhigh : x < x / 64 ^ r * 64 ^ r + 64 ^ r := Nat.lt_div_mul_add (Nat.pow_pos (by omega))
    omega
  · intro hchec
    -- the least candidate below the surrogates, else the largest one above them
    refine ⟨if v * 64 ^ r < 0xd800 then max (v * 64 ^ r) (least n) else min (v * 64 ^ r + (64 ^ r - 1)) 0x10ffff, ?_⟩
    obtain rfl | rfl | rfl : n = 2 ∨ n = 3 ∨ n = 4 := by omega
    · obtain rfl | rfl : r = 0 ∨ r = 1 := by omega
      all_goals
        simp only [least, bound, room, Nat.reducePow, Nat.reduceSub] at *
        split_ifs <;> omega
    · obtain rfl | rfl | rfl : r = 0 ∨ r = 1 ∨ r = 2 := by omega
      all_goals
        simp only [least, bound, room, Nat.reducePow, Nat.reduceSub] at *
        split_ifs <;> omega
    · obtain rfl | rfl | rfl | rfl : r = 0 ∨ r = 1 ∨ r = 2 ∨ r = 3 := by omega
      all_goals
        simp only [least, bound, room, Nat.reducePow, Nat.reduceSub] at *
        split_ifs <;> omega

lemma two_le_size {v : ℕ} (h : 0x80 ≤ v) : 2 ≤ size v := by
  unfold size
  split_ifs <;> omega

lemma ascii_of_size {v : ℕ} (h : size v = n) (hn : 2 ≤ n) : 0x80 ≤ v := by
  unfold size at h
  split_ifs at h <;> omega

lemma head_form (hk : 1 ≤ k) : (form n k v).head? = some (UInt8.ofNat (lead n + v / 64 ^ (k - 1))) := by
  have htake := take_form (n := n) (Nat.le_refl 1) (k - 1) v
  rw [Nat.add_sub_cancel' hk] at htake
  have hhead := congrArg List.head? htake
  rwa [List.head?_take, if_neg (by omega)] at hhead

/-- The bytes with the bits `v` begin the characters that have these bits in front. -/
lemma prefix_of_reach (hn : 2 ≤ n) (hk : 1 ≤ k) (hle : k ≤ n) (h : Reach n (n - k) v) :
    ∃ c : Char, size c.toNat = n ∧ form n k v = (String.utf8EncodeChar c).take k := by
  obtain ⟨c, hsize, rfl⟩ := h
  have htake := take_encode (ascii_of_size hsize hn) hk (hsize ▸ hle)
  rw [hsize] at htake
  exact ⟨c, hsize, htake.symm⟩

/-- **The bytes with the bits `v` begin only these characters.** -/
lemma reach_of_prefix {d : Char} (hn : 2 ≤ n) (hn' : n ≤ 4) (hk : 1 ≤ k) (hle : k ≤ n) (hv : Fits n k v)
    (h : form n k v <+: String.utf8EncodeChar d) : size d.toNat = n ∧ d.toNat / 64 ^ (n - k) = v := by
  have hhead : (String.utf8EncodeChar d).head? = some (UInt8.ofNat (lead n + v / 64 ^ (k - 1))) := by
    obtain ⟨l, hl⟩ := h
    rw [← hl, List.head?_append, head_form hk, Option.some_or]
  have hroom := lead_add_room n
  unfold Fits at hv
  have hlg : 0x80 ≤ d.toNat := by
    refine Nat.le_of_not_lt fun hsm => ?_
    rw [encode_ascii hsm, List.head?_cons] at hhead
    have hbyte := congrArg UInt8.toNat (Option.some.inj hhead)
    generalize v / 64 ^ (k - 1) = y at *
    rw [toNat_ofNat (by omega), toNat_ofNat (by omega)] at hbyte
    omega
  have hfits : d.toNat / 64 ^ (size d.toNat - 1) < room (size d.toNat) := fits_self (char_lt d) hlg
  have hsize : size d.toNat = n := by
    rw [encode_eq hlg, head_form (size_le _).1] at hhead
    have hbyte := congrArg UInt8.toNat (Option.some.inj hhead)
    have hroom' := lead_add_room (size d.toNat)
    rw [toNat_ofNat (by omega), toNat_ofNat (by omega)] at hbyte
    have htwo := two_le_size hlg
    have hfour := (size_le d.toNat).2
    generalize size d.toNat = m at *
    generalize d.toNat / 64 ^ (m - 1) = x at *
    generalize v / 64 ^ (k - 1) = y at *
    obtain rfl | rfl | rfl : n = 2 ∨ n = 3 ∨ n = 4 := by omega
    all_goals
      obtain rfl | rfl | rfl : m = 2 ∨ m = 3 ∨ m = 4 := by omega
      all_goals
        simp only [lead, room] at hbyte hfits hv
        omega
  refine ⟨hsize, ?_⟩
  have htake : (String.utf8EncodeChar d).take k = form n k v := by
    rw [List.prefix_iff_eq_take.mp h, length_form]
  rw [take_encode hlg hk (hsize.symm ▸ hle), hsize] at htake
  refine form_injective hk ?_ hv htake
  rw [hsize] at hfits
  unfold Fits
  rwa [Nat.div_div_eq_div_mul, ← Nat.pow_add, show n - k + (k - 1) = n - 1 by omega]

/-! ### Sequences of characters -/

def encode (cs : List Char) : List UInt8 := cs.flatMap String.utf8EncodeChar

@[simp] lemma encode_nil : encode [] = [] := rfl

@[simp] lemma encode_cons (c : Char) (cs : List Char) : encode (c :: cs) = String.utf8EncodeChar c ++ encode cs := rfl

@[simp] lemma encode_append (cs ds : List Char) : encode (cs ++ ds) = encode cs ++ encode ds := List.flatMap_append

lemma encodeChar_append_inj {c d : Char} {l m : List UInt8}
    (h : String.utf8EncodeChar c ++ l = String.utf8EncodeChar d ++ m) : c = d ∧ l = m := by
  have hbs := congrArg (fun x => ByteArray.utf8DecodeChar? x.toByteArray 0) h
  simp only [List.toByteArray_append, ByteArray.utf8DecodeChar?_utf8EncodeChar_append] at hbs
  cases hbs
  exact ⟨rfl, List.append_cancel_left h⟩

def Viable (l : List UInt8) : Prop := ∃ cs, l <+: encode cs

lemma viable_encode_append {cs : List Char} {l : List UInt8} (h : Viable (encode cs ++ l)) : Viable l := by
  induction cs with
  | nil => exact h
  | cons c cs ih =>
    obtain ⟨ds, m, hm⟩ := h
    cases ds with
    | nil =>
      have hlen := congrArg List.length hm
      simp only [encode_cons, encode_nil, List.length_append, List.length_nil] at hlen
      have hpos : 0 < (String.utf8EncodeChar c).length := List.length_pos_iff.mpr String.utf8EncodeChar_ne_nil
      omega
    | cons d ds =>
      simp only [encode_cons, List.append_assoc] at hm
      obtain ⟨rfl, hrest⟩ := encodeChar_append_inj hm
      exact ih ⟨ds, m, by rw [← hrest, List.append_assoc]⟩

/-- **The first byte that cannot continue.** Behind characters and the beginning `p` of another one, a byte that no
character with this beginning has makes the bytes not viable. -/
lemma not_viable {cs : List Char} {p l : List UInt8} {b : UInt8} (hp : ∀ c : Char, ¬String.utf8EncodeChar c <+: p)
    (hb : ∀ c : Char, ¬p ++ [b] <+: String.utf8EncodeChar c) : ¬Viable (encode cs ++ (p ++ b :: l)) := by
  intro h
  obtain ⟨ds, m, hm⟩ := viable_encode_append h
  cases ds with
  | nil => simp at hm
  | cons d ds =>
    rw [encode_cons, show p ++ b :: l ++ m = (p ++ [b]) ++ (l ++ m) by simp] at hm
    obtain ⟨a, hleft, -⟩ | ⟨a, hleft, -⟩ := List.append_eq_append_iff.mp hm
    · exact hb d ⟨a, hleft.symm⟩
    · -- the character ends before the byte, or with it
      rcases List.eq_nil_or_concat a with rfl | ⟨a, x, rfl⟩
      · rw [List.append_nil] at hleft
        exact hb d ⟨[], by rw [List.append_nil, hleft]⟩
      · rw [List.concat_eq_append, ← List.append_assoc] at hleft
        exact hp d ⟨a, (List.append_inj' hleft rfl).1.symm⟩

end PlantOS.Lib.Utf8
