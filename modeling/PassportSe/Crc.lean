import PassportSe.Pulse

/-!
# `se_crc16_chain` and `check_crc`

The CRC of `se.c` is bit-serial: for each data bit, least significant first within a byte, the
register's top bit is compared with the data bit, the register shifts left, and `polynom =
0x8005` is added when the two differ (`crcSchritt`). The register lives between calls in the
byte pair `crc[0]` (low), `crc[1]` (high).

* `seCrc16Chain_eq` -- the call is a left fold of `crcByte` over the bytes it reads, between
  `register` and `registerBytes`, and reads nothing past `length`;
* `register_registerBytes` -- the byte pair carries the whole register;
* **`seCrc16Chain_append`** -- so two chained calls over `a` and `b` are one call over `a ++ b`;
* `checkCrc_eq` -- `check_crc` in terms of the fold.
-/

namespace PassportSe

/-! ## 1. The register -/

/-- `polynom = 0x8005`. -/
def polynom : BitVec 16 := 0x8005

/-- One pass of the inner loop of `se_crc16_chain`: `crc_bit = crc_register >> 15`, the register
    shifted left by one, and `polynom` added when `data_bit ^ crc_bit` is not zero. -/
def crcSchritt (crcRegister : BitVec 16) (dataBit : Bool) : BitVec 16 :=
  if Bool.xor dataBit ((crcRegister >>> 15).getLsbD 0) then (crcRegister <<< 1) ^^^ polynom
  else crcRegister <<< 1

/-- The inner loop over one data byte, `shift_register = 0x01, 0x02, …, 0x80`. -/
def crcByte (crcRegister : BitVec 16) (d : Byte) : BitVec 16 :=
  (List.range 8).foldl (fun r i => crcSchritt r (d &&& (1#8 <<< i) != 0)) crcRegister

/-- `crc_register = crc[0] | (crc[1] << 8)`. -/
def register (crc : Byte × Byte) : BitVec 16 :=
  crc.1.setWidth 16 ||| (crc.2.setWidth 16 <<< 8)

/-- `crc[0] = crc_register & 0xFF`, `crc[1] = crc_register >> 8`. -/
def registerBytes (crcRegister : BitVec 16) : Byte × Byte :=
  (crcRegister.setWidth 8, (crcRegister >>> 8).setWidth 8)

/-- `se_crc16_chain(length, data, crc)`: the bytes `data[0 .. length-1]` folded into the register
    the pair `crc` holds; the result is the pair written back. -/
def seCrc16Chain (length : Byte) (data : Speicher) (crc : Byte × Byte) : Byte × Byte :=
  registerBytes <|
    (List.range length.toNat).foldl (fun r counter => crcByte r (data counter)) (register crc)

/-- `check_crc(data, length)`: byte 0 must be `length`, and the CRC of the first `length - 2`
    bytes, from a zero register, must be the last two bytes. (For `length < 2` the source reads
    `data[-2]`, before the buffer, where the model reads byte 0; no caller gets there, since
    `data[0] = length` is checked first and `se_read` calls it with `data[0] = len + 3 ≥ 3`.) -/
def checkCrc (data : Speicher) (length : Byte) : Bool :=
  if data 0 ≠ length then false
  else
    let obs := seCrc16Chain (length - 2) data (0, 0)
    obs.1 == data (length.toNat - 2) && obs.2 == data (length.toNat - 1)

/-- The pair written back carries the whole register. -/
@[simp] theorem register_registerBytes (r : BitVec 16) : register (registerBytes r) = r := by
  apply BitVec.eq_of_getLsbD_eq
  intro i
  have hi := i.isLt
  simp only [register, registerBytes, BitVec.getLsbD_or, BitVec.getLsbD_setWidth,
    BitVec.getLsbD_shiftLeft, BitVec.getLsbD_ushiftRight]
  by_cases h : (i : Nat) < 8
  · simp [h]
  · have e : 8 + ((i : Nat) - 8) = i := by omega
    simp [h, hi, e, show (i : Nat) - 8 < 8 by omega, show (i : Nat) - 8 < 16 by omega]

/-- The register of `(0, 0)` is zero. -/
@[simp] theorem register_null : register (0, 0) = 0 := rfl

/-- `crcByte` feeds the bits of `d`, least significant first. -/
theorem crcByte_eq (r : BitVec 16) (d : Byte) :
    crcByte r d = (List.range 8).foldl (fun r i => crcSchritt r (d.getLsbD i)) r := by
  unfold crcByte
  refine List.foldl_ext _ _ _ fun r i hi => ?_
  have hi : i < 8 := List.mem_range.mp hi
  exact congrArg _ (Bool.eq_iff_iff.mpr (bne_iff_ne.trans (and_mask_ne_zero d hi)))

/-! ## 2. Calls as folds -/

/-- The fold of `crcByte` over the counter reads the bytes `data[0 .. n-1]`. -/
theorem foldl_range_crcByte (data : Speicher) (n : Nat) (r : BitVec 16) :
    (List.range n).foldl (fun r counter => crcByte r (data counter)) r =
      (data.lies 0 n).foldl crcByte r := by
  simp [Speicher.lies, List.foldl_map]

/-- **A call is a fold**: `se_crc16_chain` reads `data[0 .. length-1]` and nothing else. -/
theorem seCrc16Chain_eq (length : Byte) (data : Speicher) (crc : Byte × Byte) :
    seCrc16Chain length data crc =
      registerBytes ((data.lies 0 length.toNat).foldl crcByte (register crc)) := by
  rw [seCrc16Chain, foldl_range_crcByte]

/-- **Chaining**: for `|a| + |b| ≤ 255`, one call over `a ++ b` leaves the pair that a call over
    `b` leaves, started from the pair a call over `a` left -- whatever the seed. -/
theorem seCrc16Chain_append (c : Byte × Byte) (a b : List Byte) (h : a.length + b.length ≤ 255) :
    seCrc16Chain (BitVec.ofNat 8 (a.length + b.length)) (Speicher.ausListe (a ++ b)) c =
      seCrc16Chain (BitVec.ofNat 8 b.length) (Speicher.ausListe b)
        (seCrc16Chain (BitVec.ofNat 8 a.length) (Speicher.ausListe a) c) := by
  have hn : ∀ n, n ≤ 255 → (BitVec.ofNat 8 n).toNat = n := fun n hn => by
    simp only [BitVec.toNat_ofNat]; omega
  rw [seCrc16Chain_eq, seCrc16Chain_eq, seCrc16Chain_eq, hn _ h, hn _ (by omega),
    hn _ (by omega), register_registerBytes, ← List.length_append, Speicher.lies_ausListe,
    Speicher.lies_ausListe, Speicher.lies_ausListe, List.foldl_append]

/-- The law at the split `[0x01, 0x02] ++ [0x03]` from the zero seed. -/
theorem seCrc16Chain_append_123 : ([0x01, 0x02] : List Byte).length + ([0x03] : List Byte).length ≤ 255 ∧
    seCrc16Chain 3 (Speicher.ausListe [0x01, 0x02, 0x03]) (0, 0) =
      seCrc16Chain 1 (Speicher.ausListe [0x03]) (seCrc16Chain 2 (Speicher.ausListe [0x01, 0x02]) (0, 0)) :=
  ⟨by decide, seCrc16Chain_append (0, 0) [0x01, 0x02] [0x03] (by decide)⟩

/-- The pair `registerBytes` writes back reads as the register it was written from. -/
@[simp] theorem registerBytes_register (c : Byte × Byte) : registerBytes (register c) = c := by
  obtain ⟨c0, c1⟩ := c
  simp only [registerBytes, register, Prod.mk.injEq]
  have h1 : ∀ i : Fin 8, (i : Nat) < 16 := fun i => by omega
  have h2 : ∀ i : Fin 8, 8 + (i : Nat) < 16 := fun i => by omega
  have h3 : ∀ i : Fin 8, ¬ 8 + (i : Nat) < 8 := fun i => by omega
  constructor <;> apply BitVec.eq_of_getLsbD_eq <;> intro i <;>
    simp [BitVec.getLsbD_or, BitVec.getLsbD_setWidth, BitVec.getLsbD_shiftLeft,
      BitVec.getLsbD_ushiftRight, h1 i, h2 i, h3 i]

/-- `check_crc` for `length ≥ 2`: the length byte, and the fold over the first `length - 2`
    bytes against the last two. -/
theorem checkCrc_eq (data : Speicher) (length : Byte) (h : 2 ≤ length.toNat) :
    checkCrc data length = true ↔ data 0 = length ∧
      (data.lies 0 (length.toNat - 2)).foldl crcByte 0 =
        register (data (length.toNat - 2), data (length.toNat - 1)) := by
  have e : (length - 2).toNat = length.toNat - 2 := by
    simp [BitVec.toNat_sub]; omega
  unfold checkCrc
  rw [seCrc16Chain_eq, e, register_null]
  by_cases h0 : data 0 = length
  · constructor
    · intro hc
      simp only [h0, ne_eq, not_true_eq_false, if_false, Bool.and_eq_true, beq_iff_eq] at hc
      refine ⟨h0, ?_⟩
      rw [← register_registerBytes ((data.lies 0 (length.toNat - 2)).foldl crcByte 0)]
      exact congrArg register (Prod.ext hc.1 hc.2)
    · rintro ⟨-, hr⟩
      rw [if_neg (not_not.mpr h0), hr, registerBytes_register]
      simp
  · simp [h0]

/-- `x` followed by the pair `se_crc16_chain(|x|, x, {0, 0})` leaves: a frame as the chip sends
    one. -/
def mitCrc (x : List Byte) : List Byte :=
  x ++ [(seCrc16Chain (BitVec.ofNat 8 x.length) (Speicher.ausListe x) (0, 0)).1,
    (seCrc16Chain (BitVec.ofNat 8 x.length) (Speicher.ausListe x) (0, 0)).2]

@[simp] theorem mitCrc_length (x : List Byte) : (mitCrc x).length = x.length + 2 := by
  simp [mitCrc]

/-- `check_crc(data, length)` reads only `data[0 .. length-1]`. -/
theorem checkCrc_congr {m m' : Speicher} {length : Byte} (h2 : 2 ≤ length.toNat)
    (h : ∀ i, i < length.toNat → m i = m' i) : checkCrc m length = checkCrc m' length := by
  have e : (length - 2).toNat = length.toNat - 2 := by
    simp [BitVec.toNat_sub]; omega
  have hl : m.lies 0 (length.toNat - 2) = m'.lies 0 (length.toNat - 2) :=
    List.ext_getElem (by simp) fun i hi _ => by simp at hi; simp [h i (by omega)]
  unfold checkCrc
  rw [seCrc16Chain_eq, seCrc16Chain_eq, e, hl, h 0 (by omega), h _ (by omega), h _ (by omega)]

/-- **A frame with its CRC appended passes `check_crc`**: `x` starting with the frame length
    `|x| + 2 ≤ 255`, followed by the pair `se_crc16_chain(|x|, x, {0, 0})` leaves. -/
theorem checkCrc_mitCrc (x : List Byte) (h : x.length + 2 ≤ 255)
    (h0 : x[0]? = some (BitVec.ofNat 8 (x.length + 2))) :
    checkCrc (Speicher.ausListe (mitCrc x)) (BitVec.ofNat 8 (x.length + 2)) = true := by
  unfold mitCrc
  have hn : ∀ n, n ≤ 255 → (BitVec.ofNat 8 n).toNat = n := fun n hn => by
    simp only [BitVec.toNat_ofNat]; omega
  have hx : 0 < x.length := by
    rcases x with _ | ⟨a, x⟩
    · simp at h0
    · simp
  rw [checkCrc_eq _ _ (by rw [hn _ h]; omega), hn _ h, seCrc16Chain_eq, hn _ (by omega),
    Speicher.lies_ausListe, register_null, Nat.add_sub_cancel,
    show x.length + 2 - 1 = x.length + 1 by omega, Speicher.lies_ausListe_append,
    Speicher.ausListe_append_links _ _ hx, Speicher.ausListe_getElem _ _ hx]
  have e0 := Speicher.ausListe_append_rechts x
    [(registerBytes (x.foldl crcByte 0)).1, (registerBytes (x.foldl crcByte 0)).2] 0
  rw [Nat.add_zero] at e0
  rw [e0, Speicher.ausListe_append_rechts]
  exact ⟨by simpa [List.getElem?_eq_getElem hx] using h0, (register_registerBytes _).symm⟩

end PassportSe
