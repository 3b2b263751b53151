import CardTable.Basis.Sha256
import Mathlib.Tactic.Ring

/-!
# Bytes — numbers in a fixed number of bytes

The low `k` bytes of a number, most or least significant first, and the
number they are read back as.
-/

namespace Basis

/-- The low `k` bytes, most significant first. -/
def putUintBE (n k : Nat) : List UInt8 := (Sha256.bigEndian n k).map UInt8.ofNat

/-- The low `k` bytes, least significant first. -/
def putUintLE (n k : Nat) : List UInt8 := (putUintBE n k).reverse

/-- The number of some bytes, most significant first. -/
def uintBE (w : List UInt8) : Nat := w.foldl (fun acc b => acc * 256 + b.toNat) 0

/-- The number of some bytes, least significant first. -/
def uintLE (w : List UInt8) : Nat := uintBE w.reverse

@[simp] theorem length_putUintBE (n k : Nat) : (putUintBE n k).length = k := by
  rw [putUintBE, List.length_map, Sha256.length_bigEndian]

@[simp] theorem length_putUintLE (n k : Nat) : (putUintLE n k).length = k := by
  rw [putUintLE, List.length_reverse, length_putUintBE]

/-- Reading back gives what fits. -/
theorem uintBE_putUintBE (n k : Nat) : uintBE (putUintBE n k) = n % 256 ^ k := by
  have hfold : ∀ acc, (putUintBE n k).foldl (fun acc b => acc * 256 + b.toNat) acc =
      acc * 256 ^ k + n % 256 ^ k := by
    induction k with
    | zero => simp [putUintBE, Sha256.bigEndian, Nat.mod_one]
    | succ k ih =>
        intro acc
        have hbyte : (UInt8.ofNat ((n >>> (8 * k)) % 256)).toNat = n / 256 ^ k % 256 := by
          rw [UInt8.toNat_ofNat', Nat.shiftRight_eq_div_pow, Nat.pow_mul]
          simp
        simp only [putUintBE, Sha256.bigEndian, List.map_cons, List.foldl_cons, hbyte]
        rw [← putUintBE, ih, Nat.mod_pow_succ, Nat.pow_succ]
        ring
  rw [uintBE, hfold, Nat.zero_mul, Nat.zero_add]

theorem uintLE_putUintLE (n k : Nat) : uintLE (putUintLE n k) = n % 256 ^ k := by
  rw [uintLE, putUintLE, List.reverse_reverse, uintBE_putUintBE]

/-! ## Every text of a length is a number -/

/-- The first byte weighs the most. -/
theorem uintBE_cons (b : UInt8) (w : List UInt8) :
    uintBE (b :: w) = b.toNat * 256 ^ w.length + uintBE w := by
  have hfold : ∀ (w : List UInt8) (acc : Nat),
      w.foldl (fun acc b => acc * 256 + b.toNat) acc = acc * 256 ^ w.length + uintBE w := by
    intro w
    induction w with
    | nil => simp [uintBE]
    | cons c w ih =>
        intro acc
        rw [uintBE, List.foldl_cons, List.foldl_cons, ih, ih, List.length_cons, Nat.pow_succ]
        ring
  rw [uintBE, List.foldl_cons, hfold, Nat.zero_mul, Nat.zero_add]

theorem uintBE_lt (w : List UInt8) : uintBE w < 256 ^ w.length := by
  induction w with
  | nil => simp [uintBE]
  | cons b w ih =>
      have hb := b.toNat_lt
      rw [uintBE_cons, List.length_cons, Nat.pow_succ]
      have hle : b.toNat * 256 ^ w.length ≤ 255 * 256 ^ w.length := Nat.mul_le_mul_right _ (by omega)
      omega

theorem uintLE_lt (w : List UInt8) : uintLE w < 256 ^ w.length := by
  simpa [uintLE] using uintBE_lt w.reverse

/-- Two texts of a length that are one number are one text. -/
theorem uintBE_inj {w v : List UInt8} (hlen : w.length = v.length) (h : uintBE w = uintBE v) :
    w = v := by
  induction w generalizing v with
  | nil => exact (List.length_eq_zero_iff.mp hlen.symm).symm
  | cons b w ih =>
      cases v with
      | nil => cases hlen
      | cons c v =>
          have hrest : w.length = v.length := Nat.succ.inj hlen
          rw [uintBE_cons, uintBE_cons, hrest] at h
          have hw := hrest ▸ uintBE_lt w
          have hv := uintBE_lt v
          -- the rest is the remainder
          have hmod := congrArg (· % 256 ^ v.length) h
          simp only [Nat.mul_add_mod_self_right, Nat.mod_eq_of_lt hw, Nat.mod_eq_of_lt hv] at hmod
          have hfirst : b.toNat * 256 ^ v.length = c.toNat * 256 ^ v.length := by omega
          have hbyte := Nat.eq_of_mul_eq_mul_right (Nat.pow_pos (by decide)) hfirst
          rw [UInt8.toNat_inj.mp hbyte, ih hrest hmod]

/-- **Writing back** what was read. -/
theorem putUintBE_uintBE {w : List UInt8} {k : Nat} (h : w.length = k) :
    putUintBE (uintBE w) k = w := by
  subst h
  refine uintBE_inj (length_putUintBE _ _) ?_
  rw [uintBE_putUintBE, Nat.mod_eq_of_lt (uintBE_lt w)]

theorem putUintLE_uintLE {w : List UInt8} {k : Nat} (h : w.length = k) :
    putUintLE (uintLE w) k = w := by
  rw [putUintLE, uintLE, putUintBE_uintBE (by rwa [List.length_reverse]), List.reverse_reverse]

/-- The bytes in front weigh more. -/
theorem uintBE_append (w v : List UInt8) :
    uintBE (w ++ v) = uintBE w * 256 ^ v.length + uintBE v := by
  induction w with
  | nil => simp [uintBE]
  | cons b w ih =>
      rw [List.cons_append, uintBE_cons, uintBE_cons, ih, List.length_append, Nat.pow_add]
      ring

theorem uintLE_append (w v : List UInt8) :
    uintLE (w ++ v) = uintLE w + 256 ^ w.length * uintLE v := by
  rw [uintLE, uintLE, uintLE, List.reverse_append, uintBE_append, List.length_reverse]
  ring

/-! ## Bytes in front -/

theorem uintBE_replicate_append (n : Nat) (w : List UInt8) :
    uintBE (List.replicate n 0 ++ w) = uintBE w := by
  induction n with
  | zero => rfl
  | succ n ih => simp [List.replicate_succ, uintBE_cons, ih]

/-- A number of fewer bytes has zeros in front. -/
theorem putUintBE_uintBE_of_le {w : List UInt8} {k : Nat} (h : w.length ≤ k) :
    putUintBE (uintBE w) k = List.replicate (k - w.length) 0 ++ w := by
  have hlen : (List.replicate (k - w.length) 0 ++ w).length = k := by
    rw [List.length_append, List.length_replicate]
    omega
  rw [← uintBE_replicate_append (k - w.length) w, putUintBE_uintBE hlen]

/-- A number of more bytes is cut to the last of them. -/
theorem putUintBE_uintBE_of_ge {w : List UInt8} {k : Nat} (h : k ≤ w.length) :
    putUintBE (uintBE w) k = w.drop (w.length - k) := by
  have hlen : (w.drop (w.length - k)).length = k := by
    rw [List.length_drop]
    omega
  have hval : uintBE w % 256 ^ k = uintBE (w.drop (w.length - k)) := by
    have hlt := uintBE_lt (w.drop (w.length - k))
    have hsplit := uintBE_append (w.take (w.length - k)) (w.drop (w.length - k))
    rw [List.take_append_drop, hlen] at hsplit
    rw [hlen] at hlt
    rw [hsplit, Nat.mul_comm, Nat.mul_add_mod, Nat.mod_eq_of_lt hlt]
  apply uintBE_inj
  · rw [length_putUintBE, hlen]
  · rw [uintBE_putUintBE, hval]

/-- The first byte weighs the least. -/
theorem uintLE_cons (b : UInt8) (w : List UInt8) : uintLE (b :: w) = b.toNat + 256 * uintLE w := by
  have hone : uintLE [b] = b.toNat := by simp [uintLE, uintBE]
  have := uintLE_append [b] w
  rwa [hone, List.length_singleton, Nat.pow_one] at this

/-- Two numbers next to each other are one. -/
theorem putUintLE_append {m n j k : Nat} (hm : m < 256 ^ j) (hn : n < 256 ^ k) :
    putUintLE m j ++ putUintLE n k = putUintLE (m + 256 ^ j * n) (j + k) := by
  have hlen : (putUintLE m j ++ putUintLE n k).length = j + k := by
    rw [List.length_append, length_putUintLE, length_putUintLE]
  rw [← putUintLE_uintLE hlen, uintLE_append, uintLE_putUintLE, uintLE_putUintLE,
    length_putUintLE, Nat.mod_eq_of_lt hm, Nat.mod_eq_of_lt hn]

/-- Two bytes by their shifts. -/
theorem putUintLE_two (n : Nat) :
    putUintLE n 2 = [UInt8.ofNat (n >>> 0), UInt8.ofNat (n >>> 8)] := by
  have hbyte : ∀ m, UInt8.ofNat (m % 256) = UInt8.ofNat m := fun _ => UInt8.ofNat_mod_size
  simp only [putUintLE, putUintBE, Sha256.bigEndian, List.map_cons, List.map_nil,
    List.reverse_cons, List.reverse_nil, List.nil_append, List.cons_append, hbyte, Nat.mul_zero,
    Nat.reduceMul]

/-- Four bytes by their shifts. -/
theorem putUintLE_four (n : Nat) : putUintLE n 4 =
    [UInt8.ofNat (n >>> 0), UInt8.ofNat (n >>> 8), UInt8.ofNat (n >>> 16),
      UInt8.ofNat (n >>> 24)] := by
  have hbyte : ∀ m, UInt8.ofNat (m % 256) = UInt8.ofNat m := fun _ => UInt8.ofNat_mod_size
  simp only [putUintLE, putUintBE, Sha256.bigEndian, List.map_cons, List.map_nil,
    List.reverse_cons, List.reverse_nil, List.nil_append, List.cons_append, hbyte, Nat.mul_zero,
    Nat.reduceMul]

end Basis
