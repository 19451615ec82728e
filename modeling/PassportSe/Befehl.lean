import PassportSe.Crc

/-!
# `se_write`: sending a command, and the power states

A command goes out as the wake byte, then the six header bytes, the body and the CRC, each byte
as eight pulses. `se_write` computes the CRC in two chained calls: over the five header bytes
from `framed_len` on, then over the body when there is one.

* `seWrite_tx` -- what `se_write` puts on the wire, in the source's terms;
* **`seWrite_rahmen`** -- it is the wake byte and the pulses of the frame `rahmen` (the CRC taken in
  one pass over `F[1 .. n+5]`), and `check_crc` accepts the frame without its `ioflag` byte;
* `seSleep`, `seIdle`, `seKeepAlive`, `seResetChip` -- one `ioflag` byte as pulses.
-/

namespace PassportSe

/-! ## 1. The model -/

/-- The fixed header of `se_write`: `ioflag = IOFLAG_CMD`, `framed_len = data_len + 7`, `op`,
    `p1`, `p2_lsb = p2 & 0xff`, `p2_msb = (p2 >> 8) & 0xff`. -/
def known (opcode p1 : Byte) (p2 : BitVec 16) (dataLen : Byte) : List Byte :=
  [Ioflag.cmd.wert, dataLen + 7, opcode, p1, (p2 &&& 0xff).setWidth 8,
    ((p2 >>> 8) &&& 0xff).setWidth 8]

/-- `se_wake()`: a zero byte (all low) on the wire, then a delay. -/
def seWake (s : Welt) : Welt := s.sende [0x00]

/-- The CRC `se_write` sends: from `{0, 0}` over `known` from `framed_len` on (five bytes), then
    over the body when `data_len` is not zero. -/
def seWriteCrc (k : List Byte) (data : Speicher) (dataLen : Byte) : Byte × Byte :=
  let crc := seCrc16Chain 5 ((Speicher.ausListe k).ab 1) (0, 0)
  if dataLen ≠ 0 then seCrc16Chain dataLen data crc else crc

/-- `se_write(opcode, p1, p2, data, data_len)`: `current_opcode = opcode`, wake, the header, the
    body when there is one, the CRC. The UI's busy bar is not modelled. The command joins the
    ghost log `befehle`. -/
def seWrite (opcode p1 : Byte) (p2 : BitVec 16) (data : Speicher) (dataLen : Byte) (s : Welt) :
    Welt :=
  let k := known opcode p1 p2 dataLen
  let crc := seWriteCrc k data dataLen
  let s := seWake { s with currentOpcode := opcode }
  let s := s.sende (sendSerialized (Speicher.ausListe k) 6)
  let s := if dataLen ≠ 0 then s.sende (sendSerialized data dataLen.toNat) else s
  let s := s.sende (sendSerialized (Speicher.ausListe [crc.1, crc.2]) 2)
  { s with befehle := s.befehle ++ [⟨opcode, p1, p2, data.lies 0 dataLen.toNat⟩] }

/-- `se_sleep()`, also `se_reset_chip()`: `IOFLAG_SLEEP`. -/
def seSleep (s : Welt) : Welt := s.sende (sendBits Ioflag.sleep.wert)

/-- `se_idle()`, also `se_keep_alive()`: `IOFLAG_IDLE`. -/
def seIdle (s : Welt) : Welt := s.sende (sendBits Ioflag.idle.wert)

/-- `se_keep_alive()`. -/
def seKeepAlive (s : Welt) : Welt := seIdle s

/-- `se_reset_chip()`. -/
def seResetChip (s : Welt) : Welt := s.sende (sendBits Ioflag.sleep.wert)

@[simp] theorem seWrite_stats (opcode p1 : Byte) (p2 : BitVec 16) (data : Speicher) (n : Byte)
    (s : Welt) : (seWrite opcode p1 p2 data n s).stats = s.stats := by
  unfold seWrite; split <;> rfl

@[simp] theorem seWrite_gelesen (opcode p1 : Byte) (p2 : BitVec 16) (data : Speicher) (n : Byte)
    (s : Welt) : (seWrite opcode p1 p2 data n s).gelesen = s.gelesen := by
  unfold seWrite; split <;> rfl

@[simp] theorem seWrite_antwort (opcode p1 : Byte) (p2 : BitVec 16) (data : Speicher) (n : Byte)
    (s : Welt) : (seWrite opcode p1 p2 data n s).antwort = s.antwort := by
  unfold seWrite; split <;> rfl

@[simp] theorem seWrite_currentOpcode (opcode p1 : Byte) (p2 : BitVec 16) (data : Speicher)
    (n : Byte) (s : Welt) : (seWrite opcode p1 p2 data n s).currentOpcode = opcode := by
  unfold seWrite; split <;> rfl

@[simp] theorem seWrite_stapel (opcode p1 : Byte) (p2 : BitVec 16) (data : Speicher) (n : Byte)
    (s : Welt) : (seWrite opcode p1 p2 data n s).stapel = s.stapel := by
  unfold seWrite; split <;> rfl

@[simp] theorem seWrite_zufall (opcode p1 : Byte) (p2 : BitVec 16) (data : Speicher) (n : Byte)
    (s : Welt) : (seWrite opcode p1 p2 data n s).zufall = s.zufall := by
  unfold seWrite; split <;> rfl

@[simp] theorem seWrite_gezogen (opcode p1 : Byte) (p2 : BitVec 16) (data : Speicher) (n : Byte)
    (s : Welt) : (seWrite opcode p1 p2 data n s).gezogen = s.gezogen := by
  unfold seWrite; split <;> rfl

@[simp] theorem seWrite_befehle (opcode p1 : Byte) (p2 : BitVec 16) (data : Speicher) (n : Byte)
    (s : Welt) : (seWrite opcode p1 p2 data n s).befehle =
      s.befehle ++ [⟨opcode, p1, p2, data.lies 0 n.toNat⟩] := by
  unfold seWrite; split <;> rfl

/-- **What `se_write` sends**: the wake byte, the header, the body (empty for `data_len = 0`)
    and the CRC, each byte as its eight pulses. -/
theorem seWrite_tx (opcode p1 : Byte) (p2 : BitVec 16) (data : Speicher) (n : Byte) (s : Welt) :
    (seWrite opcode p1 p2 data n s).tx = s.tx ++ [0x00] ++
      (known opcode p1 p2 n ++ data.lies 0 n.toNat ++
        [(seWriteCrc (known opcode p1 p2 n) data n).1,
          (seWriteCrc (known opcode p1 p2 n) data n).2]).flatMap sendBits := by
  unfold seWrite seWake
  dsimp only
  rw [sendSerialized_ausListe_of_length (known opcode p1 p2 n) 6 rfl,
    sendSerialized_ausListe_of_length [_, _] 2 rfl]
  by_cases h0 : n = 0
  · simp [h0, Speicher.lies, List.flatMap_append]
  · have h0' : n ≠ 0#8 := h0
    simp [h0', sendSerialized, List.flatMap_append]

@[simp] theorem seSleep_tx (s : Welt) : (seSleep s).tx = s.tx ++ sendBits Ioflag.sleep.wert := rfl
@[simp] theorem seSleep_stats (s : Welt) : (seSleep s).stats = s.stats := rfl
@[simp] theorem seSleep_gelesen (s : Welt) : (seSleep s).gelesen = s.gelesen := rfl
@[simp] theorem seSleep_antwort (s : Welt) : (seSleep s).antwort = s.antwort := rfl
@[simp] theorem seSleep_stapel (s : Welt) : (seSleep s).stapel = s.stapel := rfl
@[simp] theorem seSleep_zufall (s : Welt) : (seSleep s).zufall = s.zufall := rfl
@[simp] theorem seSleep_gezogen (s : Welt) : (seSleep s).gezogen = s.gezogen := rfl
@[simp] theorem seSleep_befehle (s : Welt) : (seSleep s).befehle = s.befehle := rfl
@[simp] theorem seSleep_currentOpcode (s : Welt) :
    (seSleep s).currentOpcode = s.currentOpcode := rfl

/-! ## 2. The frame -/

/-- The frame `F` of a command as the chip reads it: `[0x77, n + 7, opcode, p1, p2 mod 256,
    p2 div 256] ++ body ++ [c0, c1]`, with `(c0, c1)` the CRC of `F[1 .. n+5]` in one call from
    `{0, 0}`. (This follows the specification's words; `se_write` is compared with it.) -/
def rahmen (opcode p1 : Byte) (p2 : BitVec 16) (body : List Byte) : List Byte :=
  let kopf := [0x77, BitVec.ofNat 8 (body.length + 7), opcode, p1, BitVec.ofNat 8 (p2.toNat % 256),
    BitVec.ofNat 8 (p2.toNat / 256)]
  let c := seCrc16Chain (BitVec.ofNat 8 (body.length + 5)) (Speicher.ausListe (kopf.drop 1 ++ body))
    (0, 0)
  kopf ++ body ++ [c.1, c.2]

/-- `p2_lsb = p2 & 0xff` is `p2 mod 256`. -/
theorem p2Lsb_eq (p2 : BitVec 16) : (p2 &&& 0xff).setWidth 8 = BitVec.ofNat 8 (p2.toNat % 256) := by
  apply BitVec.eq_of_toNat_eq
  have h := Nat.and_pow_two_sub_one_eq_mod p2.toNat 8
  simp only [BitVec.toNat_setWidth, BitVec.toNat_and, BitVec.toNat_ofNat] at h ⊢
  rw [show (0xff : BitVec 16).toNat = 2 ^ 8 - 1 from rfl, h]

/-- `p2_msb = (p2 >> 8) & 0xff` is `p2 div 256`. -/
theorem p2Msb_eq (p2 : BitVec 16) :
    ((p2 >>> 8) &&& 0xff).setWidth 8 = BitVec.ofNat 8 (p2.toNat / 256) := by
  apply BitVec.eq_of_toNat_eq
  have h := Nat.and_pow_two_sub_one_eq_mod (p2.toNat >>> 8) 8
  simp only [BitVec.toNat_setWidth, BitVec.toNat_and, BitVec.toNat_ushiftRight,
    BitVec.toNat_ofNat] at h ⊢
  rw [show (0xff : BitVec 16).toNat = 2 ^ 8 - 1 from rfl, h, Nat.shiftRight_eq_div_pow]
  omega

/-- For a body of `n ≤ 248` bytes the header `se_write` builds is the frame's header. -/
theorem known_ofNat (opcode p1 : Byte) (p2 : BitVec 16) (n : Nat) :
    known opcode p1 p2 (BitVec.ofNat 8 n) = [0x77, BitVec.ofNat 8 (n + 7), opcode, p1,
      BitVec.ofNat 8 (p2.toNat % 256), BitVec.ofNat 8 (p2.toNat / 256)] := by
  rw [known, show (7 : Byte) = BitVec.ofNat 8 7 from rfl, BitVec.ofNat_add_ofNat, p2Lsb_eq,
    p2Msb_eq]
  rfl

/-- **The two chained CRC calls are one fold** over the header from `framed_len` on and the body. -/
theorem seWriteCrc_eq (k : List Byte) (hk : k.length = 6) (data : Speicher) (n : Nat)
    (hn : n ≤ 255) :
    seWriteCrc k data (BitVec.ofNat 8 n) =
      registerBytes ((k.drop 1 ++ data.lies 0 n).foldl crcByte 0) := by
  have h5 : (Speicher.ausListe k).lies 1 5 = k.drop 1 := by
    simpa [hk] using Speicher.lies_ausListe_drop k 1
  have hnat : (BitVec.ofNat 8 n).toNat = n := by simp only [BitVec.toNat_ofNat]; omega
  unfold seWriteCrc
  rw [seCrc16Chain_eq, show (5 : Byte).toNat = 5 from rfl, Speicher.lies_ab, h5, register_null]
  by_cases h0 : n = 0
  · subst h0
    simp [Speicher.lies]
  · have hne : BitVec.ofNat 8 n ≠ 0 := fun h => h0 (by rw [← hnat, h]; rfl)
    rw [if_pos hne, seCrc16Chain_eq, register_registerBytes, hnat, List.foldl_append]

/-- **`se_write` sends the frame**: for a body of `n ≤ 248` bytes (so that `framed_len = n + 7`
    fits its byte) it puts on the wire the wake byte and the pulses of `rahmen`, whose CRC is taken
    in one pass from `framed_len` on; and `check_crc` accepts the frame without its `ioflag`. -/
theorem seWrite_rahmen (opcode p1 : Byte) (p2 : BitVec 16) (data : Speicher) (n : Nat)
    (hn : n ≤ 248) (s : Welt) :
    (seWrite opcode p1 p2 data (BitVec.ofNat 8 n) s).tx =
        s.tx ++ [0x00] ++ (rahmen opcode p1 p2 (data.lies 0 n)).flatMap sendBits ∧
      checkCrc (Speicher.ausListe ((rahmen opcode p1 p2 (data.lies 0 n)).drop 1))
        (BitVec.ofNat 8 (n + 7)) = true := by
  have hnat : (BitVec.ofNat 8 n).toNat = n := by simp only [BitVec.toNat_ofNat]; omega
  set x := (known opcode p1 p2 (BitVec.ofNat 8 n)).drop 1 ++ data.lies 0 n with hx
  have hxl : x.length = n + 5 := by simp [hx, known]
  have hr : rahmen opcode p1 p2 (data.lies 0 n) = known opcode p1 p2 (BitVec.ofNat 8 n) ++
      data.lies 0 n ++ [(seCrc16Chain (BitVec.ofNat 8 x.length) (Speicher.ausListe x) (0, 0)).1,
        (seCrc16Chain (BitVec.ofNat 8 x.length) (Speicher.ausListe x) (0, 0)).2] := by
    rw [hxl, hx, known_ofNat, rahmen, Speicher.lies_length]
  have hc : seWriteCrc (known opcode p1 p2 (BitVec.ofNat 8 n)) data (BitVec.ofNat 8 n) =
      seCrc16Chain (BitVec.ofNat 8 x.length) (Speicher.ausListe x) (0, 0) := by
    rw [seWriteCrc_eq (known opcode p1 p2 (BitVec.ofNat 8 n)) rfl _ _ (by omega),
      seCrc16Chain_eq, register_null, BitVec.toNat_ofNat, Nat.mod_eq_of_lt (by omega), Speicher.lies_ausListe]
  refine ⟨by rw [seWrite_tx, hnat, hc, hr], ?_⟩
  have hd : (rahmen opcode p1 p2 (data.lies 0 n)).drop 1 = x ++
      [(seCrc16Chain (BitVec.ofNat 8 x.length) (Speicher.ausListe x) (0, 0)).1,
        (seCrc16Chain (BitVec.ofNat 8 x.length) (Speicher.ausListe x) (0, 0)).2] := by
    rw [hr, hx, known]
    simp
  have h0 : x[0]? = some (BitVec.ofNat 8 (x.length + 2)) := by
    rw [hxl, hx, known_ofNat]
    rfl
  rw [hd, show n + 7 = x.length + 2 by omega]
  exact checkCrc_mitCrc x (by omega) h0

/-- The law at the body `[0xAA, 0x55]`, where the body's own CRC call runs: the wake byte and the
    frame go out, and `check_crc` accepts the frame's nine bytes. -/
theorem seWrite_rahmen_aa55 : 2 ≤ 248 ∧
    (seWrite 0x30 0 0 (Speicher.ausListe [0xAA, 0x55]) (BitVec.ofNat 8 2)
        (Welt.start (fun _ => ⟨[], false⟩) (fun _ => 0) (fun _ => 0))).tx =
      [0x00] ++ (rahmen 0x30 0 0 [0xAA, 0x55]).flatMap sendBits ∧
    checkCrc (Speicher.ausListe ((rahmen 0x30 0 0 [0xAA, 0x55]).drop 1)) (BitVec.ofNat 8 (2 + 7)) =
      true :=
  ⟨by decide, seWrite_rahmen 0x30 0 0 (Speicher.ausListe [0xAA, 0x55]) 2 (by decide)
    (Welt.start (fun _ => ⟨[], false⟩) (fun _ => 0) (fun _ => 0))⟩

end PassportSe
