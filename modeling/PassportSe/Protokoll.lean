import PassportSe.Befehl
import PassportSe.Lesen

/-!
# The exchanges: nonce, digests, MAC checks, the config zone

The functions of `se.c` above `se_write` and `se_read`: each sends one or more commands, reads the
chip's answer and hashes what the chip hashed. SHA-256, `rom_secrets` and the text `se_checkmac`
puts into `req.ch3` are the collaborators `Umgebung`; the values of `se.h` are `Konstanten`.

* **`seCheckmac_codes`** -- what `se_checkmac` returns: `-1` exactly when the nonce exchange
  fails; after it, `0` exactly when the status byte is read and is zero, and `-2` otherwise --
  also when the status read itself fails;
* **`seCheckmac_stumm`** -- a bus that answers the nonce and then falls silent gets `-2` from
  `se_checkmac` after the status read ran out of attempts (`seCheckmac_nonceDannStill` for any
  such bus);
* `seConfigRead_befehle` -- `se_config_read` sends the Read commands of the blocks in order and
  stops at the first block whose `se_read` fails;
* `seConfigRead_ehrlich` -- on an honest chip it reads the four blocks of the config zone.
-/

namespace PassportSe

/-! ## 1. The model -/

section Modell

variable (k : Konstanten) (u : Umgebung)

/-- `se_pick_nonce(num_in, tempkey)`: the Nonce command with the 20 bytes of `num_in`,
    `se_read(randout, 32)` into a stack buffer, `se_sleep()`; on success
    `tempkey = SHA-256(randout ++ num_in ++ [0x16, 0, 0])`. -/
def sePickNonce (numIn tempkey : Speicher) (s : Welt) : Int × Speicher × Welt :=
  let s := seWrite k.opNonce 0 0 numIn 20 s
  let r := seRead k s.stapel 32 s
  let s := seSleep r.2.2
  if r.1 < 0 then (-1, tempkey, s)
  else (0, tempkey.schreibe 0 (u.sha256 (r.2.1.lies 0 32 ++ numIn.lies 0 20 ++ [0x16, 0, 0])), s)

/-- `se_gendig_slot(slot_num, slot_contents, digest)`: a nonce from 20 random bytes, the GenDig
    command over the data slot `slot_num`, `se_read1()`, `se_sleep()`; on success the digest the
    chip computed, `SHA-256(slot_contents ++ [OP_GenDig, 2, slot_num, 0, 0xEE, 0x01, 0x23] ++
    25 zeros ++ tempkey)`. -/
def seGendigSlot (slotNum : Int) (slotContents digest : Speicher) (s : Welt) :
    Int × Speicher × Welt :=
  let r := s.rngBuffer 20
  let n := sePickNonce k u (Speicher.ausListe r.1) r.2.stapel r.2
  if n.1 < 0 then (-1, digest, n.2.2)
  else
    let s := seWrite k.opGenDig 0x2 (BitVec.ofInt 16 slotNum) (fun _ => 0) 0 n.2.2
    let r1 := seRead1 k s
    let s := seSleep r1.2
    if r1.1 ≠ 0 then (-1, digest, s)
    else
      (0, digest.schreibe 0 (u.sha256 (slotContents.lies 0 32 ++
        [k.opGenDig, 2, BitVec.ofInt 8 slotNum, 0, 0xEE, 0x01, 0x23] ++ List.replicate 25 0 ++
        n.2.1.lies 0 32)), s)

/-- `mode` of `se_is_correct_tempkey`: the full serial number (`1 << 6`) and TempKey as the second
    32 bytes (`1 << 0`). -/
def macMode : Byte := 0x41

/-- `se_is_correct_tempkey(expected_tempkey)`: the MAC command over the pairing secret and
    TempKey, `se_read(resp, 32)`, `se_sleep()`, and whether `resp` is the hash computed here. -/
def seIsCorrectTempkey (expected : Speicher) (s : Welt) : Bool × Welt :=
  let s := seWrite k.opMAC macMode (k.keynumPairing.setWidth 16) (fun _ => 0) 0 s
  let r := seRead k s.stapel 32 s
  let s := seSleep r.2.2
  if r.1 < 0 then (false, s)
  else
    let actual := u.sha256 (u.pairingSecret.lies 0 32 ++ expected.lies 0 32 ++
      [k.opMAC, macMode, k.keynumPairing, 0, 0, 0, 0, 0, 0, 0, 0, 0, 0, 0, 0, 0xEE] ++
      u.seSerialNumber.lies 4 4 ++ u.seSerialNumber.lies 0 4)
    (checkEqual (Speicher.ausListe actual) r.2.1 32, s)

/-- The request body of `se_checkmac`: `ch3` (32 bytes of the text), `resp` and `od[0..12]`, with
    `resp = SHA-256(secret ++ tempkey ++ od[0..3] ++ 8 zeros ++ od[4..6] ++ [0xEE] ++ od[7..10] ++
    [0x01, 0x23] ++ od[11..12])`. -/
def checkmacAnfrage (secret tempkey : Speicher) (od : List Byte) : List Byte :=
  u.ch3Text.lies 0 32 ++
    u.sha256 (secret.lies 0 32 ++ tempkey.lies 0 32 ++ od.take 4 ++ List.replicate 8 0 ++
      (od.drop 4).take 3 ++ [0xEE] ++ (od.drop 7).take 4 ++ [0x01, 0x23] ++ (od.drop 11).take 2) ++
    od.take 13

/-- The nonce half of `se_checkmac`: `od` (32 bytes) and `numin` (20) from the RNG, then
    `se_pick_nonce(numin, tempkey)` with `tempkey` on the stack; its code, `od`, `tempkey` and the
    world. -/
def checkmacNonce (s : Welt) : Int × List Byte × Speicher × Welt :=
  let od := s.rngBuffer 32
  let numin := od.2.rngBuffer 20
  let n := sePickNonce k u (Speicher.ausListe numin.1) numin.2.stapel numin.2
  (n.1, od.1, n.2.1, n.2.2)

/-- The CheckMac command of `se_checkmac`, with `p1 = 0x01` and the 77 bytes of `req`. -/
def checkmacBefehl (keynum : Byte) (secret : Speicher) (n : Int × List Byte × Speicher × Welt) :
    Welt :=
  seWrite k.opCheckMac 0x01 (keynum.setWidth 16)
    (Speicher.ausListe (checkmacAnfrage u secret n.2.2.1 n.2.1)) 77 n.2.2.2

/-- `se_checkmac(keynum, secret)`: `-1` when the nonce fails; else the CheckMac command,
    `se_read1()`, `se_sleep()`, and `-2` when `se_read1()` did not return `0`. -/
def seCheckmac (keynum : Byte) (secret : Speicher) (s : Welt) : Int × Welt :=
  let n := checkmacNonce k u s
  if n.1 < 0 then (-1, n.2.2.2)
  else
    let r := seRead1 k (checkmacBefehl k u keynum secret n)
    (if r.1 ≠ 0 then -2 else 0, seSleep r.2)

/-- The loop of `se_pair_unlock` with `n` of its attempts left: `se_checkmac(KEYNUM_pairing,
    pairing_secret)` until one returns `0`. -/
def pairUnlockSchleife : Nat → Welt → Int × Welt
  | 0, s => (-1, s)
  | n + 1, s =>
    let r := seCheckmac k u k.keynumPairing u.pairingSecret s
    if r.1 = 0 then (0, r.2) else pairUnlockSchleife n r.2

/-- `se_pair_unlock()`: three attempts. -/
def sePairUnlock (s : Welt) : Int × Welt := pairUnlockSchleife k u 3 s

/-- `se_checkmac_hard(keynum, secret)`: a GenDig digest over the slot, then
    `se_is_correct_tempkey` on it; `-1`, `-2` or `0`. -/
def seCheckmacHard (keynum : Byte) (secret : Speicher) (s : Welt) : Int × Welt :=
  let g := seGendigSlot k u keynum.toNat secret s.stapel s
  if g.1 < 0 then (-1, g.2.2)
  else
    let t := seIsCorrectTempkey k u g.2.1 g.2.2
    (if t.1 then 0 else -2, t.2)

/-- The loop of `se_config_read` from block `blk` with `n` blocks left: the Read command for
    32 bytes of the config zone at `blk << 3`, `se_read(&config[32 * blk], 32)`, out on failure. -/
def configSchleife : Nat → Nat → Speicher → Welt → Int × Speicher × Welt
  | _, 0, config, s => (0, config, s)
  | blk, n + 1, config, s =>
    let s := seWrite k.opRead 0x80 (BitVec.ofNat 16 (blk <<< 3)) (fun _ => 0) 0 s
    let r := seRead k (config.ab (32 * blk)) 32 s
    let config := config.einsetzen (32 * blk) r.2.1
    if r.1 < 0 then (-1, config, r.2.2) else configSchleife (blk + 1) n config r.2.2

/-- `se_config_read(config)`: the four blocks, then `IOFLAG_SLEEP`. -/
def seConfigRead (config : Speicher) (s : Welt) : Int × Speicher × Welt :=
  let r := configSchleife k 0 4 config s
  (r.1, r.2.1, r.2.2.sende (sendBits Ioflag.sleep.wert))

end Modell

/-! ## 2. What `se_checkmac` returns -/

/-- The status read of `se_checkmac`: the `se_read(&data, 1)` inside `se_read1()` after the
    CheckMac command. -/
def checkmacStatus (k : Konstanten) (u : Umgebung) (keynum : Byte) (secret : Speicher) (s : Welt) :
    Int × Speicher × Welt :=
  let w := checkmacBefehl k u keynum secret (checkmacNonce k u s)
  seRead k w.stapel 1 w

theorem seCheckmac_fst (k : Konstanten) (u : Umgebung) (keynum : Byte) (secret : Speicher)
    (s : Welt) : (seCheckmac k u keynum secret s).1 =
      if (checkmacNonce k u s).1 < 0 then -1
      else if (checkmacStatus k u keynum secret s).1 < 0 ∨
          (checkmacStatus k u keynum secret s).2.1 0 ≠ 0 then -2
      else 0 := by
  have hb : ∀ b : Byte, ((b.toNat : Nat) : Int) = 0 ↔ b = 0 := fun b => by
    rw [Int.natCast_eq_zero]
    exact ⟨fun h => BitVec.eq_of_toNat_eq h, fun h => by rw [h]; rfl⟩
  unfold seCheckmac seRead1 checkmacStatus
  simp only [apply_ite Prod.fst]
  split_ifs <;> simp_all
  omega

/-- **A well-formed answer to the Nonce command**: when the next answer is the pulses of a frame
    of 35 bytes with its CRC, `se_pick_nonce` returns `0` and has taken one answer. -/
theorem sePickNonce_ehrlich (k : Konstanten) (u : Umgebung) (numIn tempkey : Speicher) (s : Welt)
    (x : List Byte) (hx : x.length = 33) (hx0 : x[0]? = some 35)
    (ha : (s.antwort s.gelesen).pulse = (mitCrc x).flatMap sendBits) :
    (sePickNonce k u numIn tempkey s).1 = 0 ∧
      (sePickNonce k u numIn tempkey s).2.2.gelesen = s.gelesen + 1 ∧
      (sePickNonce k u numIn tempkey s).2.2.antwort = s.antwort ∧
      (sePickNonce k u numIn tempkey s).2.2.stapel = s.stapel := by
  have hE := (seRead_ehrlich k (seWrite k.opNonce 0 0 numIn 20 s).stapel 32
    (seWrite k.opNonce 0 0 numIn 20 s) x hx (by decide) (by decide) hx0
    (by simpa using k.ne_opInfo.2.2.1) (by simpa using ha)).1
  have hR := seRead_ergibt k 32 (seWrite k.opNonce 0 0 numIn 20 s)
    (seWrite k.opNonce 0 0 numIn 20 s).stapel
  rw [hE] at hR
  obtain ⟨e1, -, e3, -⟩ := seReadSchleife_erhaelt k 32 101 (seWrite k.opNonce 0 0 numIn 20 s).stapel
    (seWrite k.opNonce 0 0 numIn 20 s).stapel (seWrite k.opNonce 0 0 numIn 20 s)
  have hrc := hR.rc
  simp only [seWrite_stapel, BitVec.ofNat_eq_ofNat] at hrc hR e1 e3
  refine ⟨by simp [sePickNonce, hrc], ?_, ?_, ?_⟩ <;> simp only [sePickNonce, apply_ite Prod.snd,
    apply_ite Welt.gelesen, apply_ite Welt.antwort, apply_ite Welt.stapel, seSleep_gelesen,
    seSleep_antwort, seSleep_stapel, ite_self, seWrite_stapel, BitVec.ofNat_eq_ofNat]
  · rw [hR.gelesen]; simp
  · exact e1.trans (by simp)
  · exact e3.trans (by simp)

/-- **The nonce answered, then silence**: on a bus whose next answer is a well-formed response to
    the Nonce command and whose later answers are empty, the nonce exchange returns `0`, the
    status read runs out of attempts and returns `-1`, and `se_checkmac` returns `-2`. -/
theorem seCheckmac_nonceDannStill (k : Konstanten) (u : Umgebung) (keynum : Byte)
    (secret : Speicher) (s : Welt) (x : List Byte) (hx : x.length = 33) (hx0 : x[0]? = some 35)
    (ha : (s.antwort s.gelesen).pulse = (mitCrc x).flatMap sendBits)
    (hstill : ∀ j, (s.antwort (s.gelesen + 1 + j)).pulse = []) :
    (checkmacNonce k u s).1 = 0 ∧ (checkmacStatus k u keynum secret s).1 = -1 ∧
      (seCheckmac k u keynum secret s).1 = -2 := by
  obtain ⟨h1, h2, h3, -⟩ := sePickNonce_ehrlich k u
    (Speicher.ausListe ((s.rngBuffer 32).2.rngBuffer 20).1) ((s.rngBuffer 32).2.rngBuffer 20).2.stapel
    ((s.rngBuffer 32).2.rngBuffer 20).2 x hx hx0 (by simpa using ha)
  have hn : (checkmacNonce k u s).1 = 0 := h1
  set w := checkmacBefehl k u keynum secret (checkmacNonce k u s) with hw
  have hg : w.gelesen = s.gelesen + 1 := by simpa [w, checkmacBefehl, checkmacNonce] using h2
  have hwa : w.antwort = s.antwort := by simpa [w, checkmacBefehl, checkmacNonce] using h3
  have hs := seRead_stumm k 1 w fun j _ => by simp [anzahl, hg, hwa, hstill]
  have hst : (checkmacStatus k u keynum secret s).1 = -1 := by
    rw [checkmacStatus, ← hw, (seRead_ergibt k 1 w w.stapel).rc, hs]
  refine ⟨hn, hst, ?_⟩
  rw [seCheckmac_fst, hn, hst]
  simp

/-- A bus whose first answer is a well-formed response carrying 32 zero bytes, and on which
    nothing answers after it. -/
def nonceDannStill : Welt :=
  Welt.start (fun n => if n = 0 then ⟨(mitCrc (35 :: List.replicate 32 0)).flatMap sendBits, false⟩
    else ⟨[], false⟩) (fun _ => 0) (fun _ => 0)

/-- The Read command of `se_config_read` for block `blk`: `p1 = 0x80`, `p2 = blk << 3`, no data. -/
def configBefehl (k : Konstanten) (blk : Nat) : Befehl := ⟨k.opRead, 0x80, BitVec.ofNat 16 (blk <<< 3), []⟩

/-- The Read command of block `blk` and its `se_read(&config[32 * blk], 32)`, begun with the
    buffer `config` and the world `s`: the code, the buffer at `config + 32 * blk`, the world. -/
def configLesen (k : Konstanten) (blk : Nat) (config : Speicher) (s : Welt) : Int × Speicher × Welt :=
  seRead k (config.ab (32 * blk)) 32
    (seWrite k.opRead 0x80 (BitVec.ofNat 16 (blk <<< 3)) (fun _ => 0) 0 s)

/-- Where the loop of `se_config_read`, begun at block `blk`, stands after `j` blocks whose reads
    succeeded: the buffer and the world. -/
def configStand (k : Konstanten) : Nat → Nat → Speicher → Welt → Speicher × Welt
  | _, 0, config, s => (config, s)
  | blk, j + 1, config, s =>
    let r := configLesen k blk config s
    configStand k (blk + 1) j (config.einsetzen (32 * blk) r.2.1) r.2.2

/-- The read of the loop's `j`-th block, `blk + j`, where the loop stands after the `j` before. -/
def blockLesen (k : Konstanten) (blk j : Nat) (config : Speicher) (s : Welt) : Int × Speicher × Welt :=
  configLesen k (blk + j) (configStand k blk j config s).1 (configStand k blk j config s).2

theorem configSchleife_succ (k : Konstanten) (blk n : Nat) (config : Speicher) (s : Welt) :
    configSchleife k blk (n + 1) config s =
      if (configLesen k blk config s).1 < 0 then
        (-1, config.einsetzen (32 * blk) (configLesen k blk config s).2.1, (configLesen k blk config s).2.2)
      else configSchleife k (blk + 1) n (config.einsetzen (32 * blk) (configLesen k blk config s).2.1)
        (configLesen k blk config s).2.2 := rfl

theorem blockLesen_succ (k : Konstanten) (blk j : Nat) (config : Speicher) (s : Welt) :
    blockLesen k blk (j + 1) config s = blockLesen k (blk + 1) j
      (config.einsetzen (32 * blk) (configLesen k blk config s).2.1) (configLesen k blk config s).2.2 := by
  rw [blockLesen, blockLesen, Nat.add_right_comm blk 1 j]
  rfl

/-- The Read command of block `blk`, then those of the blocks after it. -/
theorem configBefehle_cons (k : Konstanten) (blk m : Nat) (b : List Befehl) :
    b ++ [configBefehl k blk] ++ (List.range m).map (fun i => configBefehl k (blk + 1 + i)) =
      b ++ (List.range (m + 1)).map fun i => configBefehl k (blk + i) := by
  rw [List.range_succ_eq_map, List.map_cons, List.map_map, List.append_assoc, List.singleton_append,
    Nat.add_zero]
  congr 3
  funext i
  simp only [Function.comp, Nat.add_assoc, Nat.add_comm 1 i]

/-- **The loop of `se_config_read` stops at the first failed read**: from block `blk` with `n`
    blocks left, either every read succeeds, the loop returns `0` and has sent the Read commands
    of all `n` blocks; or the reads of the first `m` blocks succeed, that of block `blk + m` fails,
    and the loop returns `-1` after the Read commands of blocks `blk .. blk + m`. -/
theorem configSchleife_befehle (k : Konstanten) (n : Nat) :
    ∀ (blk : Nat) (config : Speicher) (s : Welt),
    ((configSchleife k blk n config s).1 = 0 ∧ (∀ j < n, 0 ≤ (blockLesen k blk j config s).1) ∧
      (configSchleife k blk n config s).2.2.befehle =
        s.befehle ++ (List.range n).map fun b => configBefehl k (blk + b)) ∨
    ∃ m < n, (configSchleife k blk n config s).1 = -1 ∧
      (∀ j < m, 0 ≤ (blockLesen k blk j config s).1) ∧ (blockLesen k blk m config s).1 < 0 ∧
      (configSchleife k blk n config s).2.2.befehle =
        s.befehle ++ (List.range (m + 1)).map fun b => configBefehl k (blk + b) := by
  induction n with
  | zero =>
    exact fun blk config s => .inl ⟨rfl, fun j hj => absurd hj (Nat.not_lt_zero j),
      by simp [configSchleife]⟩
  | succ n ih =>
    intro blk config s
    have hb : (configLesen k blk config s).2.2.befehle = s.befehle ++ [configBefehl k blk] := by
      simp [configLesen, configBefehl, Speicher.lies]
    rw [configSchleife_succ]
    by_cases h : (configLesen k blk config s).1 < 0
    · -- the read of block `blk` fails
      rw [if_pos h]
      exact .inr ⟨0, by omega, rfl, fun j hj => absurd hj (Nat.not_lt_zero j), h, hb.trans rfl⟩
    -- the read of block `blk` succeeds: the blocks after it
    rw [if_neg h]
    have vorher : ∀ m, (∀ j < m, 0 ≤ (blockLesen k (blk + 1) j (config.einsetzen (32 * blk)
        (configLesen k blk config s).2.1) (configLesen k blk config s).2.2).1) →
        ∀ j < m + 1, 0 ≤ (blockLesen k blk j config s).1 := by
      intro m hm j hj
      cases j with
      | zero => exact Int.not_lt.mp h
      | succ j => rw [blockLesen_succ]; exact hm j (by omega)
    rcases ih (blk + 1) _ _ with ⟨h0, hall, hw⟩ | ⟨m, hm, h1, hvor, hm', hw⟩
    · exact .inl ⟨h0, vorher n hall, by rw [hw, hb, configBefehle_cons]⟩
    · exact .inr ⟨m + 1, by omega, h1, vorher m hvor, by rw [blockLesen_succ]; exact hm',
        by rw [hw, hb, configBefehle_cons]⟩

/-- **`se_config_read` stops at the first failed read**: either the reads of all four blocks
    succeed, it returns `0` and has sent their Read commands in order; or for some block `m < 4`
    the reads of blocks `0 .. m - 1` succeed and that of block `m` fails -- each read begun where
    the loop stands after the blocks before it -- and it returns `-1` after the Read commands of
    blocks `0 .. m`. -/
theorem seConfigRead_befehle (k : Konstanten) (config : Speicher) (s : Welt) :
    ((seConfigRead k config s).1 = 0 ∧ (∀ j < 4, 0 ≤ (blockLesen k 0 j config s).1) ∧
      (seConfigRead k config s).2.2.befehle = s.befehle ++ (List.range 4).map (configBefehl k)) ∨
    ∃ m < 4, (seConfigRead k config s).1 = -1 ∧ (∀ j < m, 0 ≤ (blockLesen k 0 j config s).1) ∧
      (blockLesen k 0 m config s).1 < 0 ∧
      (seConfigRead k config s).2.2.befehle = s.befehle ++ (List.range (m + 1)).map (configBefehl k) := by
  simpa only [seConfigRead, Welt.sende_befehle, Nat.zero_add] using configSchleife_befehle k 4 0 config s

/-! ## 5. An honest chip's config zone -/

/-- The loop of `se_config_read` on a chip that answers each Read honestly: the frame of
    `32 + 3` bytes with the block `B (blk + i)` and its CRC. -/
theorem configSchleife_ehrlich (k : Konstanten) (B : Nat → List Byte) (hB : ∀ i, (B i).length = 32)
    (n : Nat) : ∀ (blk : Nat) (config : Speicher) (s : Welt),
    (∀ i, i < n → (s.antwort (s.gelesen + i)).pulse = (mitCrc (35 :: B (blk + i))).flatMap sendBits) →
    (configSchleife k blk n config s).1 = 0 ∧
      (configSchleife k blk n config s).2.1 =
        config.schreibe (32 * blk) ((List.range n).flatMap fun i => B (blk + i)) ∧
      (configSchleife k blk n config s).2.2.gelesen = s.gelesen + n ∧
      (configSchleife k blk n config s).2.2.antwort = s.antwort := by
  induction n with
  | zero => intro blk config s _; simp [configSchleife]
  | succ n ih =>
    intro blk config s ha
    set w := seWrite k.opRead 0x80 (BitVec.ofNat 16 (blk <<< 3)) (fun _ => 0) 0 s with hw
    -- the block's read: accepted at once, `B blk` copied, one answer taken
    obtain ⟨hr, hd⟩ := seRead_ehrlich k (config.ab (32 * blk)) 32 w (35 :: B blk) (by simp [hB])
      (by decide) (by decide) (by simp) (by rw [hw, seWrite_currentOpcode]; exact k.ne_opInfo.1)
      (by rw [hw, seWrite_antwort, seWrite_gelesen]; simpa using ha 0 (by omega))
    have he := seRead_ergibt k 32 w (config.ab (32 * blk))
    rw [hr] at he
    have hrc : (seRead k (config.ab (32 * blk)) 32 w).1 = 0 := he.rc
    have hg : (seRead k (config.ab (32 * blk)) 32 w).2.2.gelesen = s.gelesen + 1 := by
      rw [he.gelesen, hw, seWrite_gelesen]
    have han : (seRead k (config.ab (32 * blk)) 32 w).2.2.antwort = s.antwort := by
      exact (seReadSchleife_erhaelt k 32 101 (config.ab (32 * blk)) w.stapel w).1.trans
        (by rw [hw, seWrite_antwort])
    simp only [configSchleife, ← hw, hrc, lt_irrefl, if_false]
    rw [hd, List.drop_one, List.tail_cons, Speicher.einsetzen_schreibe]
    obtain ⟨i1, i2, i3, i4⟩ := ih (blk + 1) (config.schreibe (32 * blk) (B blk)) _ fun i hi => by
      rw [han, hg, Nat.add_assoc, Nat.add_comm 1 i, ha (i + 1) (by omega), Nat.add_assoc,
        Nat.add_comm i 1]
    refine ⟨i1, ?_, by rw [i3, hg]; omega, by rw [i4, han]⟩
    rw [i2, show 32 * (blk + 1) = 32 * blk + (B blk).length by rw [hB]; omega,
      Speicher.schreibe_append, List.range_succ_eq_map, List.flatMap_cons, List.flatMap_map]
    simp only [Nat.add_zero, Nat.add_assoc, Nat.add_comm 1]

/-- **`se_config_read` delivers the config zone an honest chip sends**: when the chip answers the
    four Reads with the frames of the blocks `B 0 .. B 3` (32 bytes each: the length byte `35`, the
    block, the CRC), `se_config_read` returns `0`, `config` holds the 128 bytes in order and
    nothing else of it changes, and one answer was taken per block. -/
theorem seConfigRead_ehrlich (k : Konstanten) (B : Nat → List Byte) (hB : ∀ i, (B i).length = 32)
    (config : Speicher) (s : Welt)
    (ha : ∀ i, i < 4 → (s.antwort (s.gelesen + i)).pulse = (mitCrc (35 :: B i)).flatMap sendBits) :
    (seConfigRead k config s).1 = 0 ∧
      (seConfigRead k config s).2.1 = config.schreibe 0 (B 0 ++ B 1 ++ B 2 ++ B 3) ∧
      (seConfigRead k config s).2.2.gelesen = s.gelesen + 4 := by
  obtain ⟨h1, h2, h3, -⟩ := configSchleife_ehrlich k B hB 4 0 config s
    fun i hi => by rw [ha i hi, Nat.zero_add]
  refine ⟨h1, ?_, by simpa [seConfigRead] using h3⟩
  simp only [seConfigRead, h2]
  simp [List.range_succ]

/-- A chip whose config zone holds byte `b` in every byte of block `b`. -/
def konfigWelt : Welt :=
  Welt.start (fun j => ⟨(mitCrc (35 :: List.replicate 32 (BitVec.ofNat 8 j))).flatMap sendBits, false⟩)
    (fun _ => 0) (fun _ => 0)

theorem seConfigRead_ehrlich_konfigWelt :
    (∀ i, (List.replicate 32 (BitVec.ofNat 8 i)).length = 32) ∧
      (∀ i, i < 4 → (konfigWelt.antwort (konfigWelt.gelesen + i)).pulse =
        (mitCrc (35 :: List.replicate 32 (BitVec.ofNat 8 i))).flatMap sendBits) ∧
      (seConfigRead konstantenBeispiel (fun _ => 0) konfigWelt).1 = 0 :=
  ⟨fun i => List.length_replicate 32 _, fun i _ => by simp [konfigWelt, Welt.start],
    (seConfigRead_ehrlich konstantenBeispiel (fun i => List.replicate 32 (BitVec.ofNat 8 i))
      (fun i => List.length_replicate 32 _) (fun _ => 0) konfigWelt
      fun i _ => by simp [konfigWelt, Welt.start]).1⟩

end PassportSe
