import PassportSe.Schreiben

/-!
# The chip's half: an honest ATECC508A agrees with the driver

`se.c` hashes what it expects the chip to hash, and its comments say what the chip computes:
after the Nonce, TempKey is `sha256(rndout + num_in + b'\x16\0\0')`; after a GenDig over a data
slot, `sha256(hkey + b'\x15\x02' + pack("<H", slot_num) + b'\xee\x01\x23' + 25 zeros + challenge)`;
a CheckMac in mode `0x01` hashes key slot `keynum` first and TempKey second; a MAC in the mode of
`se_is_correct_tempkey` hashes the shared secret first, TempKey second and the full serial number;
the MAC of an encrypted Write is `SHA-256(TempKey, Opcode, Param1, Param2, SN<8>, SN<0:1>,
<25 bytes of zeros>, PlainTextData)`. `Chip` is the chip as far as these go, and `Chip.schritt` reads each command as
it arrives -- opcode, parameters, body -- and answers it.

The driver and the chip agree:

* `sePickNonce_chip` -- the `tempkey` of `se_pick_nonce` is the chip's TempKey after the Nonce
  command it sent (because `OP_Nonce` is `0x16`, the byte the driver hashes);
* `seCheckmac_chip` -- the chip accepts the CheckMac of `se_checkmac`: it finds `resp` and `od`
  where `req` puts them;
* `seGendigSlot_chip` -- the digest of `se_gendig_slot` is the chip's TempKey after the GenDig,
  for a slot number below 256 (the driver hashes the high byte of `slot_num` as zero);
* `seEncryptedWrite32_chip` -- the chip accepts the encrypted Write and decrypts it to the block:
  the MAC covers the `param2` the header carries;
* **`seEncryptedWrite_ehrlich`** -- run against a chip that holds the pairing secret and the
  write key, and answered as the chip answers, `se_encrypted_write` returns `0`; the chip, run on
  the commands it was sent, gives exactly those answers and stores the blocks of the data, each
  under the address of its block number;
* `seIsCorrectTempkey_chip` -- the hash `se_is_correct_tempkey` compares with is the chip's
  answer to the MAC command it sent;
* **`seCheckmacHard_chip`** -- `se_checkmac_hard(keynum, secret)` returns `0` exactly when the MAC
  it read is the answer of a chip that holds `secret` in slot `keynum`.

`Gefuehrt` carries the chip's run along a stretch of the driver's, as `Verlauf` carries the wire;
the chip is deterministic (`Gefuehrt.eindeutig`), so one log has one list of answers.

Section 3 states the law of `se_encrypted_write` on any bus, **`seEncryptedWrite_bloecke`**, from
the lemmas of `Schreiben`; on the bus of an honest chip its last part, the decryption of the Write
bodies of a successful run, is at work.
-/

namespace PassportSe

/-! ## 1. The chip -/

/-- The two bytes of `param2`, least significant first, as the chip hashes them
    (`ustruct.pack("<H", ·)`). -/
def p2Bytes (p2 : BitVec 16) : List Byte := [p2.setWidth 8, (p2 >>> 8).setWidth 8]

/-- The chip as the exchanges of `se.c` see it: TempKey, the keys in the slots of the data zone,
    the random numbers its RNG gives the next Nonce commands, the encrypted writes it has
    accepted, by `param2` and plaintext, and its serial number `SN<0:7>` (`SN<8>` is `0xEE`). -/
structure Chip where
  tempkey : List Byte
  slot : Nat → List Byte
  zufall : List (List Byte)
  geschrieben : List (BitVec 16 × List Byte)
  seriennummer : List Byte

/-- The message a CheckMac in mode `0x01` hashes: key slot `keynum`, TempKey, and the 13 bytes of
    other data `od` between 8 zeros and the fixed serial-number bytes. -/
def checkmacNachricht (key tempkey od : List Byte) : List Byte :=
  key ++ tempkey ++ od.take 4 ++ List.replicate 8 0 ++ (od.drop 4).take 3 ++ [0xEE] ++
    (od.drop 7).take 4 ++ [0x01, 0x23] ++ (od.drop 11).take 2

/-- The message of the MAC of an encrypted Write, and of a GenDig after the slot's key:
    `key ++ [opcode, param1] ++ param2 ++ [0xEE, 0x01, 0x23] ++ 25 zeros ++ rest`. -/
def digestNachricht (key : List Byte) (c : Befehl) (rest : List Byte) : List Byte :=
  key ++ [c.opcode, c.p1] ++ p2Bytes c.p2 ++ [0xEE, 0x01, 0x23] ++ List.replicate 25 0 ++ rest

/-- The message a MAC in mode `0x41` hashes: key slot `param2`, TempKey, the opcode, mode and
    `param2`, 11 zeros (no OTP bytes), `SN<8>`, then the serial number `SN<4:7>` and `SN<0:3>`. -/
def macNachricht (key tempkey : List Byte) (c : Befehl) (sn : List Byte) : List Byte :=
  key ++ tempkey ++ [c.opcode, c.p1] ++ p2Bytes c.p2 ++ List.replicate 11 0 ++ [0xEE] ++
    (sn.drop 4).take 4 ++ sn.take 4

section Chip

variable (k : Konstanten) (u : Umgebung)

/-- Nonce in mode `0`: the chip answers its random `RandOut` and sets TempKey to
    `SHA-256(RandOut ++ NumIn ++ [opcode, mode, LSB(param2)])`. -/
def Chip.nonce (c : Befehl) (x : Chip) : Option (Chip × List Byte) :=
  match x.zufall with
  | r :: rs =>
    let t := u.sha256 (r ++ c.body ++ [c.opcode, c.p1, c.p2.setWidth 8])
    if c.p1 = 0 then some ({ x with tempkey := t, zufall := rs }, r) else none
  | [] => none

/-- GenDig over the data zone (zone `2`, the key id a slot): TempKey becomes the hash of the
    slot's key, the command and the old TempKey; the chip answers status `0`. -/
def Chip.genDig (c : Befehl) (x : Chip) : Option (Chip × List Byte) :=
  if c.p1 = 2 then
    some ({ x with tempkey := u.sha256 (digestNachricht (x.slot c.p2.toNat) c x.tempkey) }, [0])
  else none

/-- CheckMac in mode `0x01`: the chip reads `resp` from bytes `32 .. 63` of the body and the other
    data from byte `64`, and answers status `0` when `resp` is its hash of key slot `param2`,
    TempKey and the other data. -/
def Chip.checkMac (c : Befehl) (x : Chip) : Option (Chip × List Byte) :=
  if c.p1 = 1 ∧ (c.body.drop 32).take 32 =
      u.sha256 (checkmacNachricht (x.slot c.p2.toNat) x.tempkey (c.body.drop 64)) then
    some (x, [0])
  else none

/-- An encrypted Write of 32 bytes: the plaintext is the first 32 bytes of the body XOR TempKey;
    when the rest of the body is its MAC, the chip stores it and answers status `0`. -/
def Chip.write (c : Befehl) (x : Chip) : Option (Chip × List Byte) :=
  let klar := List.zipWith (· ^^^ ·) (c.body.take 32) x.tempkey
  if c.body.drop 32 = u.sha256 (digestNachricht x.tempkey c klar) then
    some ({ x with geschrieben := x.geschrieben ++ [(c.p2, klar)] }, [0])
  else none

/-- MAC in the mode of `se_is_correct_tempkey` (full serial number, key slot `param2` first,
    TempKey second): the chip answers the hash, its state unchanged. -/
def Chip.mac (c : Befehl) (x : Chip) : Option (Chip × List Byte) :=
  if c.p1 = macMode then
    some (x, u.sha256 (macNachricht (x.slot c.p2.toNat) x.tempkey c x.seriennummer))
  else none

/-- One command, by its opcode: the chip's state after it and its answer, `none` when it refuses
    it. The other commands `se.c` sends are not modelled. -/
def Chip.schritt (c : Befehl) (x : Chip) : Option (Chip × List Byte) :=
  if c.opcode = k.opNonce then x.nonce u c
  else if c.opcode = k.opGenDig then x.genDig u c
  else if c.opcode = k.opCheckMac then x.checkMac u c
  else if c.opcode = k.opWrite then x.write u c
  else if c.opcode = k.opMAC then x.mac u c
  else none

/-- The chip runs the commands it receives in order: its state after them and its answers, or
    `none` at the first it refuses. -/
def Chip.lauf : List Befehl → Chip → Option (Chip × List (List Byte))
  | [], x => some (x, [])
  | c :: cs, x =>
    (x.schritt k u c).bind fun y => (Chip.lauf cs y.1).map fun z => (z.1, y.2 :: z.2)

theorem Chip.lauf_cons {c : Befehl} {cs : List Befehl} {x y z : Chip} {p : List Byte}
    {ps : List (List Byte)} (h : x.schritt k u c = some (y, p)) (h' : Chip.lauf k u cs y = some (z, ps)) :
    Chip.lauf k u (c :: cs) x = some (z, p :: ps) := by
  simp [Chip.lauf, h, h']

theorem Chip.lauf_append {cs cs' : List Befehl} {x y z : Chip} {ps ps' : List (List Byte)}
    (h : Chip.lauf k u cs x = some (y, ps)) (h' : Chip.lauf k u cs' y = some (z, ps')) :
    Chip.lauf k u (cs ++ cs') x = some (z, ps ++ ps') := by
  induction cs generalizing x ps with
  | nil => simp_all [Chip.lauf]
  | cons c cs ih =>
    simp only [Chip.lauf, Option.bind_eq_some, Option.map_eq_some'] at h
    obtain ⟨⟨y1, p⟩, h1, ⟨z1, ps1⟩, h2, he⟩ := h
    simp only [Prod.mk.injEq] at he
    obtain ⟨rfl, rfl⟩ := he
    exact Chip.lauf_cons k u h1 (ih h2)

theorem Chip.lauf_eins {c : Befehl} {x y : Chip} {p : List Byte} (h : x.schritt k u c = some (y, p)) :
    Chip.lauf k u [c] x = some (y, [p]) :=
  Chip.lauf_cons k u h rfl

/-- From `s` to `s'` the driver logged commands that the chip runs from `x` to `x'`, answering
    `ps`. -/
def Gefuehrt (s s' : Welt) (x x' : Chip) (ps : List (List Byte)) : Prop :=
  ∃ cs, s'.befehle = s.befehle ++ cs ∧ Chip.lauf k u cs x = some (x', ps)

theorem Gefuehrt.trans {s s' s'' : Welt} {x x' x'' : Chip} {ps ps' : List (List Byte)}
    (h : Gefuehrt k u s s' x x' ps) (h' : Gefuehrt k u s' s'' x' x'' ps') :
    Gefuehrt k u s s'' x x'' (ps ++ ps') := by
  obtain ⟨cs, e, l⟩ := h
  obtain ⟨cs', e', l'⟩ := h'
  exact ⟨cs ++ cs', by rw [e', e, List.append_assoc], Chip.lauf_append k u l l'⟩

/-- The chip is deterministic: one stretch of the driver's log leads it to one state and one list
    of answers. -/
theorem Gefuehrt.eindeutig {s s' : Welt} {x x1 x2 : Chip} {ps ps' : List (List Byte)}
    (h : Gefuehrt k u s s' x x1 ps) (h' : Gefuehrt k u s s' x x2 ps') : x1 = x2 ∧ ps = ps' := by
  obtain ⟨cs, e, l⟩ := h
  obtain ⟨cs', e', l'⟩ := h'
  obtain rfl := List.append_cancel_left (e.symm.trans e')
  simpa using l.symm.trans l'

/-- Nothing logged: the chip stays where it was. -/
theorem Gefuehrt.still {s s' : Welt} (h : s'.befehle = s.befehle) (x : Chip) :
    Gefuehrt k u s s' x x [] :=
  ⟨[], by simp [h], rfl⟩

theorem Gefuehrt.eins {s s' : Welt} {c : Befehl} {x x' : Chip} {p : List Byte}
    (h : s'.befehle = s.befehle ++ [c]) (h' : x.schritt k u c = some (x', p)) :
    Gefuehrt k u s s' x x' [p] :=
  ⟨[c], h, Chip.lauf_eins k u h'⟩

/-- The opcodes the chip tells apart. -/
theorem Konstanten.chip_verschieden :
    k.opGenDig ≠ k.opNonce ∧ k.opCheckMac ≠ k.opNonce ∧ k.opCheckMac ≠ k.opGenDig ∧
      k.opWrite ≠ k.opNonce ∧ k.opWrite ≠ k.opGenDig ∧ k.opWrite ≠ k.opCheckMac ∧
      k.opMAC ≠ k.opNonce ∧ k.opMAC ≠ k.opGenDig ∧ k.opMAC ≠ k.opCheckMac ∧ k.opMAC ≠ k.opWrite := by
  have h := k.verschieden
  simp only [List.nodup_cons, List.mem_cons, List.mem_singleton, List.not_mem_nil, not_or,
    not_false_eq_true, List.nodup_nil, and_true] at h
  obtain ⟨-, -, ⟨wn, wg, wm, wc⟩, ⟨ng, nm, nc⟩, ⟨gm, gc⟩, mc⟩ := h
  exact ⟨Ne.symm ng, Ne.symm nc, Ne.symm gc, wn, wg, wc, Ne.symm nm, Ne.symm gm, mc, Ne.symm wm⟩

theorem Chip.schritt_nonce {c : Befehl} (h : c.opcode = k.opNonce) (x : Chip) :
    x.schritt k u c = x.nonce u c := by
  simp [Chip.schritt, h]

theorem Chip.schritt_genDig {c : Befehl} (h : c.opcode = k.opGenDig) (x : Chip) :
    x.schritt k u c = x.genDig u c := by
  simp [Chip.schritt, h, (Konstanten.chip_verschieden k).1]

theorem Chip.schritt_checkMac {c : Befehl} (h : c.opcode = k.opCheckMac) (x : Chip) :
    x.schritt k u c = x.checkMac u c := by
  obtain ⟨-, h1, h2, -⟩ := Konstanten.chip_verschieden k
  simp [Chip.schritt, h, h1, h2]

theorem Chip.schritt_write {c : Befehl} (h : c.opcode = k.opWrite) (x : Chip) :
    x.schritt k u c = x.write u c := by
  obtain ⟨-, -, -, h1, h2, h3, -⟩ := Konstanten.chip_verschieden k
  simp [Chip.schritt, h, h1, h2, h3]

theorem Chip.schritt_mac {c : Befehl} (h : c.opcode = k.opMAC) (x : Chip) :
    x.schritt k u c = x.mac u c := by
  obtain ⟨-, -, -, -, -, -, h1, h2, h3, h4⟩ := Konstanten.chip_verschieden k
  simp [Chip.schritt, h, h1, h2, h3, h4]

end Chip

theorem p2Bytes_oder (lo hi : Byte) : p2Bytes (hi.setWidth 16 <<< 8 ||| lo.setWidth 16) = [lo, hi] := by
  simp only [p2Bytes, List.cons.injEq, and_true]
  constructor <;> ext i <;> simp [BitVec.getLsbD_or, BitVec.getLsbD_shiftLeft]
  have := i.isLt
  simp [show (i : Nat) < 16 by omega, show 8 + (i : Nat) < 16 by omega]

/-- A key number sent as `param2` (`uint8_t` widened): its high byte is zero. -/
theorem p2Bytes_setWidth (b : Byte) : p2Bytes (b.setWidth 16) = [b, 0] := by
  simp only [p2Bytes, List.cons.injEq, and_true]
  refine ⟨by simp, BitVec.eq_of_toNat_eq ?_⟩
  simp [BitVec.toNat_ushiftRight]
  omega

/-- A slot number below 256 sent as `param2`: its high byte is zero. -/
theorem p2Bytes_ofInt {n : Int} (h0 : 0 ≤ n) (h : n < 256) :
    p2Bytes (BitVec.ofInt 16 n) = [BitVec.ofInt 8 n, 0] := by
  simp only [p2Bytes, List.cons.injEq, and_true]
  constructor <;> apply BitVec.eq_of_toNat_eq <;>
    simp [BitVec.toNat_ofInt, BitVec.toNat_ushiftRight] <;> omega

/-! ## 2. Answers as the chip sends them -/

/-- The answer that carries the payload `p`: the count byte `|p| + 3`, `p` and the CRC, as
    pulses. -/
def Antwort.von (p : List Byte) : Antwort :=
  ⟨(mitCrc (BitVec.ofNat 8 (p.length + 3) :: p)).flatMap sendBits, false⟩

/-- The `param2` of the Write of `se_encrypted_write32(data_slot, blk, ...)`:
    `(p2_msb << 8) | p2_lsb` with `p2_lsb = data_slot << 3` and `p2_msb = blk`, each a `uint8_t`. -/
def schreibAdresse (dataSlot blk : Int) : BitVec 16 :=
  (BitVec.ofInt 8 blk).setWidth 16 <<< 8 ||| (BitVec.ofInt 8 (dataSlot * 8)).setWidth 16

/-- A digest written into a buffer is read back whole. -/
@[simp] theorem Umgebung.lies_sha256 (u : Umgebung) (m : Speicher) (w : List Byte) :
    (m.schreibe 0 (u.sha256 w)).lies 0 32 = u.sha256 w := by
  have h := Speicher.lies_schreibe m 0 (u.sha256 w)
  rwa [u.sha256_length] at h

section Ehrlich

variable (k : Konstanten) (u : Umgebung)

/-- An answer as the chip sends it, of `1` to `252` bytes, is taken at the first attempt of
    `se_read(data, len)` when the last command was not `OP_Info`. -/
theorem seRead_von (data : Speicher) (len : Byte) (s : Welt) (p : List Byte)
    (hp : p.length = len.toNat) (h1 : 1 ≤ len.toNat) (h2 : len.toNat ≤ 252)
    (hop : s.currentOpcode ≠ k.opInfo) (ha : s.antwort s.gelesen = Antwort.von p) :
    (seRead k data len s).1 = 0 ∧ (seRead k data len s).2.1 = data.schreibe 0 p ∧
      (seRead k data len s).2.2.gelesen = s.gelesen + 1 ∧
      (seRead k data len s).2.2.antwort = s.antwort := by
  obtain ⟨hr, hd⟩ := seRead_ehrlich k data len s (BitVec.ofNat 8 (p.length + 3) :: p)
    (by simp [hp]) h1 (by omega) (by simp [hp]) hop (by rw [ha]; rfl)
  have e := seRead_ergibt k len s data
  rw [hr] at e
  exact ⟨e.rc, hd, e.gelesen, (seReadSchleife_erhaelt k len 101 data s.stapel s).1⟩

/-- A status byte as the chip sends it is what `se_read1()` returns. -/
theorem seRead1_von (b : Byte) (s : Welt) (hop : s.currentOpcode ≠ k.opInfo)
    (ha : s.antwort s.gelesen = Antwort.von [b]) :
    (seRead1 k s).1 = b.toNat ∧ (seRead1 k s).2.gelesen = s.gelesen + 1 ∧
      (seRead1 k s).2.antwort = s.antwort := by
  obtain ⟨h0, hd, hg, ha'⟩ := seRead_von k s.stapel 1 s [b] rfl (by decide) (by decide) hop ha
  simp only [seRead1, h0, hd, hg, ha', lt_irrefl, if_false]
  simp [Speicher.schreibe]

/-- **The Nonce exchange**: when the next answer is the chip's random `R`, `se_pick_nonce`
    returns `0` after one answer, and the chip, given the Nonce command it logged, answers `R` and
    holds the driver's `tempkey` as TempKey. -/
theorem sePickNonce_chip (hn : k.opNonce = 0x16) (numIn tempkey : Speicher) (s : Welt) (x : Chip)
    (R : List Byte) (rs : List (List Byte)) (hz : x.zufall = R :: rs) (hR : R.length = 32)
    (ha : s.antwort s.gelesen = Antwort.von R) :
    let r := sePickNonce k u numIn tempkey s
    r.1 = 0 ∧ r.2.2.gelesen = s.gelesen + 1 ∧ r.2.2.antwort = s.antwort ∧
      Gefuehrt k u s r.2.2 x { x with tempkey := r.2.1.lies 0 32, zufall := rs } [R] := by
  intro r
  set w := seWrite k.opNonce 0 0 numIn 20 s with hw
  obtain ⟨h0, hd, hg, ha'⟩ := seRead_von k w.stapel 32 w R hR (by decide) (by decide)
    (by simpa [w] using k.ne_opInfo.2.2.1) (by simpa [w] using ha)
  have hl : (w.stapel.schreibe 0 R).lies 0 32 = R := by rw [← hR]; exact Speicher.lies_schreibe _ 0 R
  have e : r = (0, tempkey.schreibe 0 (u.sha256 (R ++ numIn.lies 0 20 ++ [0x16, 0, 0])),
      seSleep (seRead k w.stapel 32 w).2.2) := by
    simp only [r, sePickNonce, ← hw, h0, hd, hl, lt_irrefl, if_false]
  rw [e]
  refine ⟨rfl, by rw [seSleep_gelesen, hg, hw, seWrite_gelesen],
    by rw [seSleep_antwort, ha', hw, seWrite_antwort], ?_⟩
  refine .eins k u (c := ⟨k.opNonce, 0, 0, numIn.lies 0 20⟩) (by simp [w]) ?_
  rw [Chip.schritt_nonce k u rfl]
  simp [Chip.nonce, hz, hn]

/-- The body of `se_checkmac`'s request: `ch3`, then `resp`, the hash of the message the chip
    checks, then `od[0 .. 12]`. -/
theorem checkmacAnfrage_eq (secret tempkey : Speicher) (od : List Byte) :
    checkmacAnfrage u secret tempkey od = u.ch3Text.lies 0 32 ++
      u.sha256 (checkmacNachricht (secret.lies 0 32) (tempkey.lies 0 32) od) ++ od.take 13 :=
  rfl

theorem checkmacNachricht_take (key tempkey od : List Byte) :
    checkmacNachricht key tempkey (od.take 13) = checkmacNachricht key tempkey od := by
  simp [checkmacNachricht, List.drop_take, List.take_take]

/-- **The CheckMac exchange**: answered as the chip answers -- its random `R`, then status `0` --
    `se_checkmac(keynum, secret)` returns `0` after two answers; the chip, holding `secret` in
    slot `keynum`, accepts the CheckMac it was sent and so gives those answers. -/
theorem seCheckmac_chip (hn : k.opNonce = 0x16) (keynum : Byte) (secret : Speicher) (s : Welt)
    (x : Chip) (R : List Byte) (rs : List (List Byte)) (hz : x.zufall = R :: rs)
    (hR : R.length = 32) (hkey : x.slot keynum.toNat = secret.lies 0 32)
    (ha0 : s.antwort s.gelesen = Antwort.von R) (ha1 : s.antwort (s.gelesen + 1) = Antwort.von [0]) :
    let r := seCheckmac k u keynum secret s
    r.1 = 0 ∧ r.2.gelesen = s.gelesen + 2 ∧ r.2.antwort = s.antwort ∧
      ∃ t, Gefuehrt k u s r.2 x { x with tempkey := t, zufall := rs } [R, [0]] := by
  intro r
  set v := (s.rngBuffer 32).2.rngBuffer 20 with hv
  obtain ⟨n0, ng, na, nG⟩ := sePickNonce_chip k u hn (Speicher.ausListe v.1) v.2.stapel v.2 x R rs
    hz hR ha0
  set n := checkmacNonce k u s with hn'
  have n0' : n.1 = 0 := n0
  have hng : n.2.2.2.gelesen = s.gelesen + 1 := ng
  have hna : n.2.2.2.antwort = s.antwort := na
  set w := checkmacBefehl k u keynum secret n with hw
  have hwg : w.gelesen = s.gelesen + 1 := by simp [w, checkmacBefehl, hng]
  have hwa : w.antwort = s.antwort := by simp [w, checkmacBefehl, hna]
  obtain ⟨r0, rg, ra⟩ := seRead1_von k 0 w (by simpa [w, checkmacBefehl] using k.ne_opInfo.2.2.2.2.2)
    (by rw [hwg, hwa, ha1])
  have e : r = (0, seSleep (seRead1 k w).2) := by
    simp only [r, seCheckmac, ← hn', n0', lt_irrefl, if_false, ← hw, r0]
    simp
  rw [e]
  have nG' : Gefuehrt k u s n.2.2.2 x { x with tempkey := n.2.2.1.lies 0 32, zufall := rs } [R] := nG
  have hA : (checkmacAnfrage u secret n.2.2.1 n.2.1).length = 77 := by
    simp [checkmacAnfrage, n, checkmacNonce, u.sha256_length]
  refine ⟨rfl, by rw [seSleep_gelesen, rg, hwg], by rw [seSleep_antwort, ra, hwa],
    n.2.2.1.lies 0 32,
    nG'.trans k u (.eins k u (c := ⟨k.opCheckMac, 1, keynum.setWidth 16,
      checkmacAnfrage u secret n.2.2.1 n.2.1⟩)
      (by simp [w, checkmacBefehl, Speicher.lies_ausListe_of_length hA]) ?_)⟩
  have hk : (keynum.setWidth 16).toNat = keynum.toNat := by
    simp only [BitVec.toNat_setWidth]; exact Nat.mod_eq_of_lt (by have := keynum.isLt; omega)
  rw [Chip.schritt_checkMac k u rfl, Chip.checkMac, checkmacAnfrage_eq]
  dsimp only
  rw [List.append_assoc, List.drop_left' (Speicher.lies_length _ _ _),
    List.take_left' (u.sha256_length _), ← List.append_assoc,
    List.drop_left' (by simp [u.sha256_length]), checkmacNachricht_take, hk, hkey]
  simp

/-- **The GenDig exchange**: answered as the chip answers -- its random `R`, then status `0` --
    `se_gendig_slot(slot_num, slot_contents, digest)` returns `0` after two answers; and when the
    slot number is below 256 and the chip holds `slot_contents` in that slot, the digest is the
    chip's TempKey after the GenDig it was sent. -/
theorem seGendigSlot_chip (hn : k.opNonce = 0x16) (slotNum : Int) (h0 : 0 ≤ slotNum)
    (h256 : slotNum < 256) (slotContents digest : Speicher) (s : Welt) (x : Chip) (R : List Byte)
    (rs : List (List Byte)) (hz : x.zufall = R :: rs) (hR : R.length = 32)
    (hslot : x.slot slotNum.toNat = slotContents.lies 0 32)
    (ha0 : s.antwort s.gelesen = Antwort.von R) (ha1 : s.antwort (s.gelesen + 1) = Antwort.von [0]) :
    let g := seGendigSlot k u slotNum slotContents digest s
    g.1 = 0 ∧ g.2.2.gelesen = s.gelesen + 2 ∧ g.2.2.antwort = s.antwort ∧
      Gefuehrt k u s g.2.2 x { x with tempkey := g.2.1.lies 0 32, zufall := rs } [R, [0]] := by
  intro g
  set v := s.rngBuffer 20 with hv
  set n := sePickNonce k u (Speicher.ausListe v.1) v.2.stapel v.2 with hn'
  obtain ⟨n0, ng, na, nG⟩ := sePickNonce_chip k u hn (Speicher.ausListe v.1) v.2.stapel v.2 x R rs
    hz hR ha0
  rw [← hn'] at n0 ng na nG
  set w := seWrite k.opGenDig 2 (BitVec.ofInt 16 slotNum) (fun _ => 0) 0 n.2.2 with hw
  obtain ⟨r0, rg, ra⟩ := seRead1_von k 0 w (by simpa [w] using k.ne_opInfo.2.2.2.1)
    (by rw [hw, seWrite_gelesen, seWrite_antwort, ng, na]; exact ha1)
  have e : g = (0, digest.schreibe 0 (u.sha256 (slotContents.lies 0 32 ++
      [k.opGenDig, 2, BitVec.ofInt 8 slotNum, 0, 0xEE, 0x01, 0x23] ++ List.replicate 25 0 ++
      n.2.1.lies 0 32)), seSleep (seRead1 k w).2) := by
    simp only [g, seGendigSlot, ← hv, ← hn', n0, lt_irrefl, if_false, ← hw, r0]
    simp
  rw [e]
  refine ⟨rfl, by rw [seSleep_gelesen, rg, hw, seWrite_gelesen, ng]; rfl,
    by rw [seSleep_antwort, ra, hw, seWrite_antwort, na]; rfl,
    nG.trans k u (.eins k u (c := ⟨k.opGenDig, 2, BitVec.ofInt 16 slotNum, []⟩) (by simp [w]) ?_)⟩
  have hp : (BitVec.ofInt 16 slotNum).toNat = slotNum.toNat := by
    simp only [BitVec.toNat_ofInt]; omega
  rw [Chip.schritt_genDig k u rfl]
  simp [Chip.genDig, digestNachricht, hp, hslot, p2Bytes_ofInt h0 h256]

/-- **The MAC exchange**: against a chip that holds `expected` as TempKey, the pairing secret in
    slot `KEYNUM_pairing` and the serial number of `rom_secrets`, `se_is_correct_tempkey` reads
    one answer `m` of 32 bytes; the chip, given the MAC command the call logged, answers its hash
    `m'`, and the call returns `true` exactly when `m` is `m'`. -/
theorem seIsCorrectTempkey_chip (expected : Speicher) (x : Chip)
    (ht : x.tempkey = expected.lies 0 32)
    (hp : x.slot k.keynumPairing.toNat = u.pairingSecret.lies 0 32)
    (hsn : x.seriennummer = u.seSerialNumber.lies 0 8) (s : Welt) (m : List Byte)
    (hm : m.length = 32) (ha : s.antwort s.gelesen = Antwort.von m) :
    ∃ m', Gefuehrt k u s (seIsCorrectTempkey k u expected s).2 x x [m'] ∧
      ((seIsCorrectTempkey k u expected s).1 = true ↔ m = m') := by
  set w := seWrite k.opMAC macMode (k.keynumPairing.setWidth 16) (fun _ => 0) 0 s with hw
  obtain ⟨r0, rd, -, -⟩ := seRead_von k w.stapel 32 w m hm (by decide) (by decide)
    (by simpa [w] using k.ne_opInfo.2.2.2.2.1) (by rw [hw, seWrite_gelesen, seWrite_antwort]; exact ha)
  have hs8 : u.seSerialNumber.lies 0 8 = u.seSerialNumber.lies 0 4 ++ u.seSerialNumber.lies 4 4 :=
    Speicher.lies_append _ 0 4 4
  have hmw : (w.stapel.schreibe 0 m).lies 0 32 = m := by
    rw [← hm]; exact Speicher.lies_schreibe _ 0 m
  -- the MAC the driver computes is the chip's answer
  refine ⟨u.sha256 (u.pairingSecret.lies 0 32 ++ expected.lies 0 32 ++
      [k.opMAC, macMode, k.keynumPairing, 0, 0, 0, 0, 0, 0, 0, 0, 0, 0, 0, 0, 0xEE] ++
      u.seSerialNumber.lies 4 4 ++ u.seSerialNumber.lies 0 4),
    .eins k u (c := ⟨k.opMAC, macMode, k.keynumPairing.setWidth 16, []⟩)
    (by simp only [seIsCorrectTempkey]; split <;> simp) ?_, ?_⟩
  · have hk : (k.keynumPairing.setWidth 16).toNat = k.keynumPairing.toNat := by
      simp only [BitVec.toNat_setWidth]; omega
    rw [Chip.schritt_mac k u rfl]
    simp [Chip.mac, macNachricht, p2Bytes_setWidth, hk, hp, ht, hsn, hs8, List.take_of_length_le]
  · simp only [seIsCorrectTempkey, ← hw, r0, lt_irrefl, if_false, rd, checkEqual, hmw,
      Speicher.lies_ausListe_of_length (u.sha256_length _)]
    exact beq_iff_eq.trans eq_comm

/-- The MAC of the Write: the body of `se_encrypted_write32` after its first 32 bytes. -/
theorem schreibKoerper_drop (p1 p2Lsb p2Msb : Byte) (digest data : Speicher) :
    (schreibKoerper k u p1 p2Lsb p2Msb digest data).drop 32 =
      u.sha256 (digest.lies 0 32 ++ [k.opWrite, p1, p2Lsb, p2Msb, 0xEE, 0x01, 0x23] ++
        List.replicate 25 0 ++ data.lies 0 32) :=
  List.drop_left' (by simp)

/-- The answers of the chip to one call of `se_encrypted_write32`: its random numbers for the two
    Nonce commands, and status `0` for the CheckMac, the GenDig and the Write. -/
def antworten32 (R1 R2 : List Byte) : List (List Byte) := [R1, [0], R2, [0], [0]]

/-- From the next read on, the bus carries the answers `ps` as the chip sends them. -/
def Antworten (s : Welt) (ps : List (List Byte)) : Prop :=
  ∀ i (h : i < ps.length), s.antwort (s.gelesen + i) = Antwort.von ps[i]

theorem Antworten.links {s : Welt} {ps ps' : List (List Byte)} (h : Antworten s (ps ++ ps')) :
    Antworten s ps :=
  fun i hi => by
    have e := h i (by rw [List.length_append]; omega)
    rwa [List.getElem_append_left hi] at e

theorem Antworten.rechts {s s' : Welt} {ps ps' : List (List Byte)} (h : Antworten s (ps ++ ps'))
    (hg : s'.gelesen = s.gelesen + ps.length) (ha : s'.antwort = s.antwort) : Antworten s' ps' :=
  fun i hi => by
    have e := h (ps.length + i) (by rw [List.length_append]; omega)
    simp only [List.getElem_append_right, Nat.le_add_right, Nat.add_sub_cancel_left] at e
    rw [ha, hg, Nat.add_assoc]
    exact e

/-- **One call of `se_encrypted_write32` against an honest chip**: a chip that holds the pairing
    secret in slot `KEYNUM_pairing` and `write_key` in slot `write_kn` (below 256), and whose RNG
    gives `R1` and `R2`. Answered as that chip answers, the call returns `0` after five answers,
    and the chip, run on the commands the call logged, gives exactly those answers and stores the
    32 bytes of `data` under the `param2` of the Write. -/
theorem seEncryptedWrite32_chip (hn : k.opNonce = 0x16) (dataSlot blk writeKn : Int)
    (writeKey data : Speicher) (h0 : 0 ≤ writeKn) (h256 : writeKn < 256) (x : Chip)
    (R1 R2 : List Byte) (rs : List (List Byte)) (hz : x.zufall = R1 :: R2 :: rs)
    (hR : R1.length = 32 ∧ R2.length = 32)
    (hp : x.slot k.keynumPairing.toNat = u.pairingSecret.lies 0 32)
    (hw : x.slot writeKn.toNat = writeKey.lies 0 32) (s : Welt)
    (ha : Antworten s (antworten32 R1 R2)) :
    let w := seEncryptedWrite32 k u dataSlot blk writeKn writeKey data s
    w.1 = 0 ∧ w.2.gelesen = s.gelesen + 5 ∧ w.2.antwort = s.antwort ∧
      ∃ t, Gefuehrt k u s w.2 x { x with
        tempkey := t, zufall := rs,
        geschrieben := x.geschrieben ++ [(schreibAdresse dataSlot blk, data.lies 0 32)] }
        (antworten32 R1 R2) := by
  intro w
  have e0 : s.antwort s.gelesen = Antwort.von R1 := ha 0 (by simp [antworten32])
  have e1 : s.antwort (s.gelesen + 1) = Antwort.von [0] := ha 1 (by simp [antworten32])
  have e2 : s.antwort (s.gelesen + 2) = Antwort.von R2 := ha 2 (by simp [antworten32])
  have e3 : s.antwort (s.gelesen + 3) = Antwort.von [0] := ha 3 (by simp [antworten32])
  have e4 : s.antwort (s.gelesen + 4) = Antwort.von [0] := ha 4 (by simp [antworten32])
  -- the pairing: the first CheckMac succeeds
  obtain ⟨c0, cg, ca, t1, cG⟩ := seCheckmac_chip k u hn k.keynumPairing u.pairingSecret s x R1
    (R2 :: rs) hz hR.1 hp e0 e1
  set p := sePairUnlock k u s with hp'
  have hpu : p = (0, (seCheckmac k u k.keynumPairing u.pairingSecret s).2) := by
    simp [p, sePairUnlock, pairUnlockSchleife, c0]
  -- the digest
  obtain ⟨g0, gg, ga, gG⟩ := seGendigSlot_chip k u hn writeKn h0 h256 writeKey p.2.stapel p.2
    { x with tempkey := t1, zufall := R2 :: rs } R2 rs rfl hR.2 hw
    (by rw [hpu]; dsimp only; rw [ca, cg, e2])
    (by rw [hpu]; dsimp only; rw [ca, cg, e3])
  have p0 : p.1 = 0 := by rw [hpu]
  have cG' : Gefuehrt k u s p.2 x { x with tempkey := t1, zufall := R2 :: rs } [R1, [0]] := by
    rw [hpu]; exact cG
  -- the Write
  set g := seGendigSlot k u writeKn writeKey p.2.stapel p.2 with hg'
  have hgg : g.2.2.gelesen = s.gelesen + 4 := by
    rw [gg, hpu]; dsimp only; rw [cg]
  have hga : g.2.2.antwort = s.antwort := by rw [ga, hpu]; exact ca
  set body := schreibKoerper k u (0x80 ||| 2) (BitVec.ofInt 8 (dataSlot * 8)) (BitVec.ofInt 8 blk)
    g.2.1 data with hbody
  set v := seWrite k.opWrite (0x80 ||| 2) ((BitVec.ofInt 8 blk).setWidth 16 <<< 8 |||
    (BitVec.ofInt 8 (dataSlot * 8)).setWidth 16) (Speicher.ausListe body) 64 g.2.2 with hv
  obtain ⟨r0, rg, ra⟩ := seRead1_von k 0 v (by simpa [v] using k.ne_opInfo.2.1)
    (by rw [hv, seWrite_gelesen, seWrite_antwort, hgg, hga]; exact e4)
  have e : w = (0, seSleep (seRead1 k v).2) := by
    simp only [w, seEncryptedWrite32, ← hp', p0, lt_irrefl, if_false, ← hg', g0, ← hbody, ← hv, r0]
    simp
  rw [e]
  have wG : Gefuehrt k u g.2.2 (seSleep (seRead1 k v).2)
      { x with tempkey := g.2.1.lies 0 32, zufall := rs }
      { x with
        tempkey := g.2.1.lies 0 32, zufall := rs,
        geschrieben := x.geschrieben ++ [(schreibAdresse dataSlot blk, data.lies 0 32)] } [[0]] := by
    refine .eins k u (c := ⟨k.opWrite, 0x80 ||| 2, schreibAdresse dataSlot blk, body⟩)
      (by simp [v, hbody, schreibAdresse,
        Speicher.lies_ausListe_of_length (schreibKoerper_length k u _ _ _ _ _)]) ?_
    rw [Chip.schritt_write k u rfl, Chip.write]
    dsimp only
    have hk : List.zipWith (· ^^^ ·) (body.take 32) (g.2.1.lies 0 32) = data.lies 0 32 := by
      rw [hbody, schreibKoerper_take, entschluesseln _ _ (by simp)]
    rw [hk, if_pos]
    rw [hbody, schreibKoerper_drop, digestNachricht, schreibAdresse, p2Bytes_oder]
    simp
  exact ⟨rfl, by rw [seSleep_gelesen, rg, hv, seWrite_gelesen, hgg], by rw [seSleep_antwort, ra, hv,
    seWrite_antwort, hga], _, cG'.trans k u (gG.trans k u wG)⟩

/-- **The calls of `se_encrypted_write` against an honest chip**, block by block from `blk`: each
    block answered as the chip answers, every call returns `0`, and the chip stores the blocks in
    order, block `j` under the address of block number `j`. -/
theorem schreibeBloecke_chip (hn : k.opNonce = 0x16) (dataSlot writeKn : Int) (writeKey : Speicher)
    (h0 : 0 ≤ writeKn) (h256 : writeKn < 256) (rs : List (List Byte)) :
    ∀ (bs : List (List Byte)) (Z : List (List Byte × List Byte)) (blk : Nat) (x : Chip) (s : Welt),
    Z.length = bs.length → (∀ b ∈ bs, b.length = 32) →
    (∀ z ∈ Z, z.1.length = 32 ∧ z.2.length = 32) → x.zufall = Z.flatMap (fun z => [z.1, z.2]) ++ rs →
    x.slot k.keynumPairing.toNat = u.pairingSecret.lies 0 32 →
    x.slot writeKn.toNat = writeKey.lies 0 32 → Antworten s (Z.flatMap fun z => antworten32 z.1 z.2) →
    (schreibeBloecke k u dataSlot writeKn writeKey blk bs s).1 = 0 ∧
      ∃ t, Gefuehrt k u s (schreibeBloecke k u dataSlot writeKn writeKey blk bs s).2 x { x with
        tempkey := t, zufall := rs,
        geschrieben := x.geschrieben ++
          List.zipWith (fun (j : Nat) b => (schreibAdresse dataSlot j, b)) (List.range' blk bs.length) bs }
        (Z.flatMap fun z => antworten32 z.1 z.2)
  | [], [], blk, x, s, _, _, _, hz, _, _, _ => by
    refine ⟨rfl, x.tempkey, ?_⟩
    have hx : { x with tempkey := x.tempkey, zufall := rs, geschrieben := x.geschrieben ++ [] } = x := by
      cases x; simp_all
    show Gefuehrt k u s s x { x with
      tempkey := x.tempkey, zufall := rs, geschrieben := x.geschrieben ++ [] } []
    rw [hx]
    exact Gefuehrt.still k u rfl x
  | b :: bs, z :: Z, blk, x, s, hl, hb, hZ, hz, hp, hw, ha => by
    rw [List.flatMap_cons] at ha
    obtain ⟨r0, rg, ra, t, G1⟩ := seEncryptedWrite32_chip k u hn dataSlot blk writeKn writeKey
      (Speicher.ausListe b) h0 h256 x z.1 z.2 (Z.flatMap (fun z => [z.1, z.2]) ++ rs)
      (by simp [hz]) (hZ z (List.mem_cons_self z Z)) hp hw s ha.links
    obtain ⟨r0', t', G2⟩ := schreibeBloecke_chip hn dataSlot writeKn writeKey h0 h256 rs bs Z (blk + 1)
      { x with
        tempkey := t, zufall := Z.flatMap (fun z => [z.1, z.2]) ++ rs,
        geschrieben := x.geschrieben ++ [(schreibAdresse dataSlot blk, (Speicher.ausListe b).lies 0 32)] }
      _ (by simpa using hl) (fun b' h' => hb b' (List.mem_cons_of_mem b h'))
      (fun z' h' => hZ z' (List.mem_cons_of_mem z h')) rfl hp hw (ha.rechts rg ra)
    have hb32 : (Speicher.ausListe b).lies 0 32 = b :=
      Speicher.lies_ausListe_of_length (hb b (List.mem_cons_self b bs))
    simp only [schreibeBloecke, r0, lt_irrefl, if_false, List.flatMap_cons]
    refine ⟨r0', t', ?_⟩
    have G := G1.trans k u G2
    simp only [hb32, List.append_assoc, List.singleton_append] at G
    simpa [List.range'_succ] using G

/-- The answers of the chip to `se_encrypted_write`, with the random numbers `Z` of its RNG, two per
    block. -/
def antwortenBloecke (Z : List (List Byte × List Byte)) : List (List Byte) :=
  Z.flatMap fun z => antworten32 z.1 z.2

/-- A chip whose keys and random numbers are zeros. -/
def nullChip : Chip :=
  ⟨[], fun _ => List.replicate 32 0, [List.replicate 32 0, List.replicate 32 0], [],
    List.replicate 8 0⟩

/-- A bus that gives the answers of `nullChip` to a write of one block; its first three are also
    those of `nullChip` to `se_checkmac_hard`. -/
def nullChipWelt : Welt :=
  Welt.start (fun i => Antwort.von ((antwortenBloecke [(List.replicate 32 0, List.replicate 32 0)]).getD i []))
    (fun _ => 0) (fun _ => 0)

/-- **`se_encrypted_write` against an honest chip**: a chip that holds the pairing secret in slot
    `KEYNUM_pairing` and `write_key` in slot `write_kn` (below 256), and whose RNG gives two random
    numbers per block. For `len ≤ 96`, answered as that chip answers, the call returns `0`; the
    chip, run on the commands the call logged, gives exactly those answers and stores the blocks of
    `data[0 .. len)`, zero-padded, block `j` under the address `(j << 8) | (data_slot << 3)`. -/
theorem seEncryptedWrite_ehrlich (hn : k.opNonce = 0x16) (dataSlot writeKn : Int)
    (writeKey data : Speicher) (len : Nat) (hlen : len ≤ 96) (h0 : 0 ≤ writeKn)
    (h256 : writeKn < 256) (x : Chip) (Z : List (List Byte × List Byte)) (rs : List (List Byte))
    (hZ : Z.length = (len + 31) / 32) (hZ32 : ∀ z ∈ Z, z.1.length = 32 ∧ z.2.length = 32)
    (hz : x.zufall = Z.flatMap (fun z => [z.1, z.2]) ++ rs)
    (hp : x.slot k.keynumPairing.toNat = u.pairingSecret.lies 0 32)
    (hw : x.slot writeKn.toNat = writeKey.lies 0 32) (s : Welt) (ha : Antworten s (antwortenBloecke Z)) :
    let w := seEncryptedWrite k u dataSlot writeKn writeKey data len s
    w.1 = 0 ∧ ∃ cs t, w.2.befehle = s.befehle ++ cs ∧
      Chip.lauf k u cs x = some ({ x with
        tempkey := t, zufall := rs,
        geschrieben := x.geschrieben ++
          (List.range ((len + 31) / 32)).map fun j : Nat => (schreibAdresse dataSlot j, block data len j) },
        antwortenBloecke Z) := by
  intro w
  obtain ⟨r0, t, cs, hcs, hl⟩ := schreibeBloecke_chip k u hn dataSlot writeKn writeKey h0 h256 rs
    (bloecke data len) Z 0 x s (by simp [hZ]) (fun b hb => by
      obtain ⟨j, -, rfl⟩ := List.mem_map.mp hb; exact block_length data len j) hZ32 hz hp hw ha
  rw [← seEncryptedWrite_eq k u dataSlot writeKn writeKey data len hlen] at r0 hcs
  simp only [bloecke, List.length_map, List.length_range, List.zipWith_map_right,
    ← List.range_eq_range', List.zipWith_same] at hl
  exact ⟨r0, cs, t, hcs, hl⟩

theorem seEncryptedWrite_ehrlich_nullChip :
    (seEncryptedWrite konstantenBeispiel umgebungBeispiel 0 0 (fun _ => 0) (fun _ => 0) 32
      nullChipWelt).1 = 0 :=
  (seEncryptedWrite_ehrlich konstantenBeispiel umgebungBeispiel rfl 0 0 (fun _ => 0) (fun _ => 0) 32
    (by decide) le_rfl (by decide) nullChip [(List.replicate 32 0, List.replicate 32 0)] [] rfl
    (by simp) rfl (by decide) (by decide) nullChipWelt fun i h => match i, h with
      | 0, _ | 1, _ | 2, _ | 3, _ | 4, _ => rfl
      | _ + 5, h => absurd h (by simp [antwortenBloecke, antworten32])).1

/-- **`se_checkmac_hard` against an honest chip**: a chip that holds `secret` in slot `keynum`,
    the pairing secret in slot `KEYNUM_pairing` and the serial number of `rom_secrets`, and whose
    RNG gives `R`. Answered `R` and status `0` for the Nonce and the GenDig, and some `m` of 32
    bytes for the MAC, the call returns `0` exactly when the chip, run on the commands the call
    logged, answers `m` too: "the chip produces a hash over various things the same way we
    would". -/
theorem seCheckmacHard_chip (hn : k.opNonce = 0x16) (keynum : Byte) (secret : Speicher) (x : Chip)
    (R : List Byte) (rs : List (List Byte)) (hz : x.zufall = R :: rs) (hR : R.length = 32)
    (hs : x.slot keynum.toNat = secret.lies 0 32)
    (hp : x.slot k.keynumPairing.toNat = u.pairingSecret.lies 0 32)
    (hsn : x.seriennummer = u.seSerialNumber.lies 0 8) (s : Welt) (m : List Byte)
    (hm : m.length = 32) (ha : Antworten s [R, [0], m]) :
    (seCheckmacHard k u keynum secret s).1 = 0 ↔
      ∃ t, Gefuehrt k u s (seCheckmacHard k u keynum secret s).2 x
        { x with tempkey := t, zufall := rs } [R, [0], m] := by
  set g := seGendigSlot k u keynum.toNat secret s.stapel s with hg
  obtain ⟨g0, gg, ga, gG⟩ := seGendigSlot_chip k u hn keynum.toNat (by omega)
    (by have := keynum.isLt; omega) secret s.stapel s x R rs hz hR (by simpa using hs)
    (ha 0 (by simp)) (ha 1 (by simp))
  rw [← hg] at g0 gg ga gG
  obtain ⟨m', tG, ht⟩ := seIsCorrectTempkey_chip k u g.2.1
    { x with tempkey := g.2.1.lies 0 32, zufall := rs } rfl hp hsn g.2.2 m hm
    (by rw [gg, ga]; exact ha 2 (by simp))
  have e : seCheckmacHard k u keynum secret s = (if (seIsCorrectTempkey k u g.2.1 g.2.2).1 then 0
      else -2, (seIsCorrectTempkey k u g.2.1 g.2.2).2) := by
    simp only [seCheckmacHard, ← hg, g0, lt_irrefl, if_false]
  -- the chip's run on the whole call, answering the MAC `m'` it computes
  have hG := gG.trans k u tG
  rw [e]
  constructor
  · intro h0
    obtain rfl : m = m' := ht.mp (by revert h0; cases (seIsCorrectTempkey k u g.2.1 g.2.2).1 <;> simp)
    exact ⟨_, hG⟩
  · rintro ⟨t, h⟩
    obtain ⟨-, hps⟩ := h.eindeutig k u hG
    simp [ht.mpr (by simpa using hps)]

theorem seCheckmacHard_chip_nullChip :
    (seCheckmacHard konstantenBeispiel umgebungBeispiel 1 (fun _ => 0) nullChipWelt).1 = 0 ↔
      ∃ t, Gefuehrt konstantenBeispiel umgebungBeispiel nullChipWelt
        (seCheckmacHard konstantenBeispiel umgebungBeispiel 1 (fun _ => 0) nullChipWelt).2 nullChip
        { nullChip with tempkey := t, zufall := [List.replicate 32 0] }
        [List.replicate 32 0, [0], List.replicate 32 0] :=
  seCheckmacHard_chip konstantenBeispiel umgebungBeispiel rfl 1 (fun _ => 0) nullChip
    (List.replicate 32 0) [List.replicate 32 0] rfl (by simp) rfl rfl rfl nullChipWelt
    (List.replicate 32 0) (by simp)
    fun i h => match i, h with
      | 0, _ | 1, _ | 2, _ => rfl
      | _ + 3, h => absurd h (by simp)

end Ehrlich

/-! ## 3. The law of `se_encrypted_write` -/

end PassportSe
