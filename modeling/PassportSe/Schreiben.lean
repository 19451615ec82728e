import PassportSe.Protokoll

/-!
# Encrypted writes: `se_encrypted_write32` and `se_encrypted_write`

`se_encrypted_write` cuts `data[0 .. len)` into blocks of 32 bytes, copies each into a zeroed
stack buffer and hands it to `se_encrypted_write32`, which unlocks the pairing, has the chip and
the host compute a GenDig digest, and sends the block XOR the digest, with a MAC, in one Write
command. The spec's side is `bloecke` (the blocks) and `schreibeBloecke` (one call per block, in
order, out at the first failure); `aufrufe` lists the calls a run makes.

* **`encryptedWriteSchleife_eq`** -- the loop of `se_encrypted_write` is `schreibeBloecke` over
  `bloecke data len`, for `len ≤ 96`;
* **`schreibeBloecke_lauf`** -- a run of `schreibeBloecke`, call by call (`BlockLauf`): block
  numbers `blk, blk + 1, ...`, the blocks as plaintexts, out after the first call that fails,
  `0` exactly when every call returned `0`, and the Write commands of the run those of its calls;
* **`seEncryptedWrite32_befehle`** -- a call logs at most one Write command, one when it returns
  `0`, and the first 32 bytes of its body are the plaintext XOR the call's digest;
* `seEncryptedWrite_klemme` -- any other `len` acts as its clamp to `0 .. 96`.

All of it for `se_encrypted_write` is `seEncryptedWrite_bloecke`, stated in `Chip` beside a bus on
which a write succeeds.
-/

namespace PassportSe

/-- The commands `se.c` sends besides the Write are not the Write. -/
theorem Konstanten.ne_opWrite (k : Konstanten) :
    k.opNonce ≠ k.opWrite ∧ k.opGenDig ≠ k.opWrite ∧ k.opCheckMac ≠ k.opWrite := by
  have h := k.verschieden
  refine ⟨fun e => ?_, fun e => ?_, fun e => ?_⟩ <;> rw [e] at h <;> simp at h

/-! ## 1. The model -/

section Modell

variable (k : Konstanten) (u : Umgebung)

/-- The 64 bytes of `body` in `se_encrypted_write32`: `data[i] ^ digest[i]` for `i < 32`, then
    the MAC `SHA-256(digest ++ args ++ 25 zeros ++ data)` with
    `args = [OP_Write, p1, p2_lsb, p2_msb, 0xEE, 0x01, 0x23]`. -/
def schreibKoerper (p1 p2Lsb p2Msb : Byte) (digest data : Speicher) : List Byte :=
  (List.range 32).map (fun i => data i ^^^ digest i) ++
    u.sha256 (digest.lies 0 32 ++ [k.opWrite, p1, p2Lsb, p2Msb, 0xEE, 0x01, 0x23] ++
      List.replicate 25 0 ++ data.lies 0 32)

/-- `se_encrypted_write32(data_slot, blk, write_kn, write_key, data)`: `se_pair_unlock()`, a
    GenDig digest over the slot `write_kn` into the stack buffer `digest`, then the Write command
    with `p1 = 0x80 | 2`, `p2 = (p2_msb << 8) | p2_lsb` and the 64 bytes of `body`, `se_read1()`,
    `se_sleep()`; `-1` at the first step that fails, else `0`. `p2_lsb` is `data_slot << 3` and
    `p2_msb` is `blk`, each cut to a `uint8_t`. -/
def seEncryptedWrite32 (dataSlot blk writeKn : Int) (writeKey data : Speicher) (s : Welt) :
    Int × Welt :=
  let p := sePairUnlock k u s
  if p.1 < 0 then (-1, p.2)
  else
    let g := seGendigSlot k u writeKn writeKey p.2.stapel p.2
    if g.1 < 0 then (-1, g.2.2)
    else
      let p1 : Byte := 0x80 ||| 2
      let p2Lsb : Byte := BitVec.ofInt 8 (dataSlot * 8)
      let p2Msb : Byte := BitVec.ofInt 8 blk
      let body := schreibKoerper k u p1 p2Lsb p2Msb g.2.1 data
      let s := seWrite k.opWrite p1 ((p2Msb.setWidth 16 <<< 8) ||| p2Lsb.setWidth 16)
        (Speicher.ausListe body) 64 g.2.2
      let r := seRead1 k s
      let s := seSleep r.2
      if r.1 ≠ 0 then (-1, s) else (0, s)

/-- The loop of `se_encrypted_write` at block `blk` with `len` bytes left and `n = 3 - blk` turns
    left by `blk < 3`: `here = MIN(32, len)` bytes of `data + 32 * blk` copied into the zeroed
    `tmp[32]`, `se_encrypted_write32` on `tmp`, `-1` as soon as one fails. -/
def encryptedWriteSchleife (dataSlot writeKn : Int) (writeKey data : Speicher) :
    Nat → Nat → Int → Welt → Int × Welt
  | _, 0, _, s => (0, s)
  | blk, n + 1, len, s =>
    if 0 < len then
      let here := min 32 len
      let tmp := Speicher.schreibe (fun _ => 0) 0 (data.lies (32 * blk) here.toNat)
      let r := seEncryptedWrite32 k u dataSlot blk writeKn writeKey tmp s
      if r.1 < 0 then (-1, r.2)
      else encryptedWriteSchleife dataSlot writeKn writeKey data (blk + 1) n (len - 32) r.2
    else (0, s)

/-- `se_encrypted_write(data_slot, write_kn, write_key, data, len)`: the loop from block `0`. -/
def seEncryptedWrite (dataSlot writeKn : Int) (writeKey data : Speicher) (len : Int) (s : Welt) :
    Int × Welt :=
  encryptedWriteSchleife k u dataSlot writeKn writeKey data 0 3 len s

/-! ## 2. The spec's blocks and loop -/

/-- The spec's loop: `se_encrypted_write32` on the blocks `bs` in order, numbered from `blk`,
    `-1` at the first that fails. -/
def schreibeBloecke (dataSlot writeKn : Int) (writeKey : Speicher) :
    Nat → List (List Byte) → Welt → Int × Welt
  | _, [], s => (0, s)
  | blk, b :: bs, s =>
    let r := seEncryptedWrite32 k u dataSlot blk writeKn writeKey (Speicher.ausListe b) s
    if r.1 < 0 then (-1, r.2) else schreibeBloecke dataSlot writeKn writeKey (blk + 1) bs r.2

end Modell

/-- Block `b` of the spec: `data[32 b .. min(32 b + 32, len) - 1]`, then zeros up to 32 bytes. -/
def block (data : Speicher) (len b : Nat) : List Byte :=
  data.lies (32 * b) (min (32 * b + 32) len - 32 * b) ++
    List.replicate (32 - (min (32 * b + 32) len - 32 * b)) 0

/-- The `ceil(len / 32)` blocks of `data[0 .. len)`. -/
def bloecke (data : Speicher) (len : Nat) : List (List Byte) :=
  (List.range ((len + 31) / 32)).map (block data len)

@[simp] theorem block_length (data : Speicher) (len b : Nat) : (block data len b).length = 32 := by
  simp only [block, List.length_append, Speicher.lies_length, List.length_replicate]
  omega

@[simp] theorem bloecke_length (data : Speicher) (len : Nat) :
    (bloecke data len).length = (len + 31) / 32 := by
  simp [bloecke]

/-- A block reads `data` below `len` only. -/
theorem block_congr {data data' : Speicher} {len : Nat} (h : ∀ i < len, data' i = data i) (b : Nat) :
    block data' len b = block data len b := by
  simp only [block, Speicher.lies]
  congr 1
  exact List.map_congr_left fun i hi => h _ (by simp at hi; omega)

/-- The first `m` blocks, laid end to end: `data[0 .. min(len, 32 m))` and zeros up to `32 m`. -/
theorem flatten_map_block (data : Speicher) (len m : Nat) :
    ((List.range m).map (block data len)).flatten =
      data.lies 0 (min len (32 * m)) ++ List.replicate (32 * m - min len (32 * m)) 0 := by
  induction m with
  | zero => simp
  | succ m ih =>
    rw [List.range_succ, List.map_append, List.flatten_append, ih]
    simp only [List.map_singleton, List.flatten_singleton, block]
    by_cases hm : len ≤ 32 * m
    · have e : min (32 * m + 32) len - 32 * m = 0 := by omega
      rw [e, Speicher.lies_zero, List.nil_append, List.append_assoc, List.append_replicate_replicate,
        Nat.min_eq_left hm, Nat.min_eq_left (by omega)]
      congr 2
      omega
    · obtain ⟨c, hc⟩ : ∃ c, min (32 * m + 32) len - 32 * m = c := ⟨_, rfl⟩
      rw [hc, Nat.min_eq_right (by omega : 32 * m ≤ len), Nat.sub_self, List.replicate_zero,
        List.append_nil, show min len (32 * (m + 1)) = 32 * m + c by omega,
        show 32 * (m + 1) - (32 * m + c) = 32 - c by omega, ← Speicher.lies_append, Nat.zero_add,
        List.append_assoc]

/-- **The blocks laid end to end** are `data[0 .. len)` and zeros up to a multiple of 32. -/
theorem bloecke_flatten (data : Speicher) (len : Nat) :
    (bloecke data len).flatten = data.lies 0 len ++ List.replicate ((len + 31) / 32 * 32 - len) 0 := by
  rw [bloecke, flatten_map_block, Nat.min_eq_left (by omega), Nat.mul_comm]

/-! ## 3. The loop is the spec's loop -/

section Verfeinerung

variable (k : Konstanten) (u : Umgebung) (dataSlot writeKn : Int) (writeKey data : Speicher)

/-- The buffer `tmp` of block `blk` is the spec's block, with `len - 32 blk` bytes left. -/
theorem tmp_eq_block (len blk : Nat) (h : 32 * blk < len) :
    Speicher.schreibe (fun _ => 0) 0
        (data.lies (32 * blk) (min 32 ((len : Int) - 32 * blk)).toNat) =
      Speicher.ausListe (block data len blk) := by
  have e : (min 32 ((len : Int) - 32 * blk)).toNat = min (32 * blk + 32) len - 32 * blk := by omega
  rw [e, Speicher.schreibe_null, block]

/-- **The loop of `se_encrypted_write` is the spec's loop**: from block `blk`, with `len - 32 blk`
    bytes left and turns enough for `len`, it makes the calls `schreibeBloecke` makes on the
    blocks `blk, blk + 1, ...` of `bloecke data len`. -/
theorem encryptedWriteSchleife_eq (len : Nat) (n : Nat) : ∀ (blk : Nat) (s : Welt),
    len ≤ 32 * (blk + n) →
    encryptedWriteSchleife k u dataSlot writeKn writeKey data blk n ((len : Int) - 32 * blk) s =
      schreibeBloecke k u dataSlot writeKn writeKey blk
        ((List.range' blk ((len + 31) / 32 - blk)).map (block data len)) s := by
  induction n with
  | zero =>
    intro blk s h
    rw [show (len + 31) / 32 - blk = 0 by omega]
    rfl
  | succ n ih =>
    intro blk s h
    by_cases hl : 32 * blk < len
    · obtain ⟨m, hm⟩ : ∃ m, (len + 31) / 32 - blk = m + 1 := ⟨_, (Nat.succ_pred_eq_of_pos (by omega)).symm⟩
      have hm' : (len + 31) / 32 - (blk + 1) = m := by omega
      rw [hm, List.range'_succ, List.map_cons]
      simp only [encryptedWriteSchleife, schreibeBloecke, show (0 : Int) < len - 32 * blk by omega,
        if_true, tmp_eq_block data len blk hl]
      split
      · rfl
      · rw [← hm', ← ih (blk + 1) _ (by omega)]
        congr 1
        push_cast
        omega
    · rw [show (len + 31) / 32 - blk = 0 by omega]
      simp [encryptedWriteSchleife, schreibeBloecke, show ¬ (0 : Int) < len - 32 * blk by omega]

/-- `se_encrypted_write` for `len ≤ 96` is the spec's loop over `bloecke data len`. -/
theorem seEncryptedWrite_eq (len : Nat) (hlen : len ≤ 96) (s : Welt) :
    seEncryptedWrite k u dataSlot writeKn writeKey data len s =
      schreibeBloecke k u dataSlot writeKn writeKey 0 (bloecke data len) s := by
  have h := encryptedWriteSchleife_eq k u dataSlot writeKn writeKey data len 3 0 s (by omega)
  simpa [bloecke, List.range_eq_range'] using h

/-- The loop reads `len` only through `0 < len - 32 blk` and, where that holds,
    `MIN(32, len - 32 blk)`, for `blk < 3`: two lengths that agree on these give the same run. -/
theorem encryptedWriteSchleife_len (len len' : Int)
    (h : ∀ b : Nat, b < 3 → (0 < len - 32 * b ↔ 0 < len' - 32 * b) ∧
      (0 < len - 32 * b → min 32 (len - 32 * b) = min 32 (len' - 32 * b))) (n : Nat) :
    ∀ (blk : Nat) (s : Welt), blk + n ≤ 3 →
    encryptedWriteSchleife k u dataSlot writeKn writeKey data blk n (len - 32 * blk) s =
      encryptedWriteSchleife k u dataSlot writeKn writeKey data blk n (len' - 32 * blk) s := by
  induction n with
  | zero => intro blk s _; rfl
  | succ n ih =>
    intro blk s hn
    obtain ⟨h1, h2⟩ := h blk (by omega)
    simp only [encryptedWriteSchleife]
    by_cases hp : 0 < len - 32 * blk
    · simp only [hp, h1.mp hp, if_true, h2 hp]
      split
      · rfl
      · have e : ∀ l : Int, l - 32 * blk - 32 = l - 32 * ((blk + 1 : Nat) : Int) := fun l => by
          push_cast; omega
        rw [e, e, ih (blk + 1) _ (by omega)]
    · simp only [hp, mt h1.mpr hp, if_false]

end Verfeinerung

/-! ## 4. The Write commands in the log -/

section Befehle

variable (k : Konstanten) (u : Umgebung)

/-- Whether a logged command is a Write. -/
def istWrite (c : Befehl) : Bool := c.opcode == k.opWrite

/-- The Write commands logged from `s` to `s'`. -/
def neueWrites (s s' : Welt) : List Befehl := (s'.befehle.drop s.befehle.length).filter (istWrite k)

/-- From `s` to `s'` the log grew, by commands other than Write only. -/
def OhneWrite (s s' : Welt) : Prop := ∃ l, s'.befehle = s.befehle ++ l ∧ l.filter (istWrite k) = []

variable {k}

theorem OhneWrite.of_befehle {s s' : Welt} (h : s'.befehle = s.befehle) : OhneWrite k s s' :=
  ⟨[], by simp [h], rfl⟩

theorem OhneWrite.trans {s s' s'' : Welt} (h1 : OhneWrite k s s') (h2 : OhneWrite k s' s'') :
    OhneWrite k s s'' := by
  obtain ⟨l1, e1, f1⟩ := h1
  obtain ⟨l2, e2, f2⟩ := h2
  exact ⟨l1 ++ l2, by rw [e2, e1, List.append_assoc], by rw [List.filter_append, f1, f2]; rfl⟩

theorem ohneWrite_seWrite {op : Byte} (h : op ≠ k.opWrite) (p1 : Byte) (p2 : BitVec 16)
    (data : Speicher) (n : Byte) (s : Welt) : OhneWrite k s (seWrite op p1 p2 data n s) :=
  ⟨_, seWrite_befehle op p1 p2 data n s, by simp [istWrite, h]⟩

variable (k)

theorem sePickNonce_ohneWrite (numIn tempkey : Speicher) (s : Welt) :
    OhneWrite k s (sePickNonce k u numIn tempkey s).2.2 := by
  have e : (sePickNonce k u numIn tempkey s).2.2 = seSleep (seRead k
      (seWrite k.opNonce 0 0 numIn 20 s).stapel 32 (seWrite k.opNonce 0 0 numIn 20 s)).2.2 := by
    simp only [sePickNonce]; split <;> rfl
  rw [e]
  exact (ohneWrite_seWrite k.ne_opWrite.1 0 0 numIn 20 s).trans (.of_befehle (by simp))

theorem checkmacNonce_ohneWrite (s : Welt) : OhneWrite k s (checkmacNonce k u s).2.2.2 :=
  (OhneWrite.of_befehle (by simp)).trans (sePickNonce_ohneWrite k u _ _ _)

theorem seCheckmac_ohneWrite (keynum : Byte) (secret : Speicher) (s : Welt) :
    OhneWrite k s (seCheckmac k u keynum secret s).2 := by
  simp only [seCheckmac]
  split
  · exact checkmacNonce_ohneWrite k u s
  · have hb : OhneWrite k (checkmacNonce k u s).2.2.2
        (checkmacBefehl k u keynum secret (checkmacNonce k u s)) :=
      ohneWrite_seWrite k.ne_opWrite.2.2 _ _ _ _ _
    exact (checkmacNonce_ohneWrite k u s).trans (hb.trans (.of_befehle (by simp)))

theorem pairUnlockSchleife_ohneWrite (n : Nat) :
    ∀ s, OhneWrite k s (pairUnlockSchleife k u n s).2 := by
  induction n with
  | zero => exact fun s => .of_befehle rfl
  | succ n ih =>
    intro s
    simp only [pairUnlockSchleife]
    split
    · exact seCheckmac_ohneWrite k u _ _ s
    · exact (seCheckmac_ohneWrite k u _ _ s).trans (ih _)

theorem seGendigSlot_ohneWrite (slotNum : Int) (slotContents digest : Speicher) (s : Welt) :
    OhneWrite k s (seGendigSlot k u slotNum slotContents digest s).2.2 := by
  have hn : OhneWrite k s (sePickNonce k u (Speicher.ausListe (s.rngBuffer 20).1)
      (s.rngBuffer 20).2.stapel (s.rngBuffer 20).2).2.2 :=
    (OhneWrite.of_befehle (by simp)).trans (sePickNonce_ohneWrite k u _ _ _)
  simp only [seGendigSlot]
  split
  · exact hn
  · split <;> exact hn.trans ((ohneWrite_seWrite k.ne_opWrite.2.1 2 (BitVec.ofInt 16 slotNum)
      (fun _ => 0) 0 _).trans (.of_befehle (by simp)))

/-- The GenDig digest a call of `se_encrypted_write32` from `s` works with. -/
def schreibDigest (writeKn : Int) (writeKey : Speicher) (s : Welt) : Speicher :=
  (seGendigSlot k u writeKn writeKey (sePairUnlock k u s).2.stapel (sePairUnlock k u s).2).2.1

@[simp] theorem schreibKoerper_length (p1 p2Lsb p2Msb : Byte) (digest data : Speicher) :
    (schreibKoerper k u p1 p2Lsb p2Msb digest data).length = 64 := by
  simp [schreibKoerper, u.sha256_length]

/-- The first 32 bytes of the body are the data XOR the digest. -/
theorem schreibKoerper_take (p1 p2Lsb p2Msb : Byte) (digest data : Speicher) :
    (schreibKoerper k u p1 p2Lsb p2Msb digest data).take 32 =
      List.zipWith (· ^^^ ·) (data.lies 0 32) (digest.lies 0 32) := by
  simp [schreibKoerper, Speicher.lies, List.zipWith_map]

theorem seEncryptedWrite32_rc (dataSlot blk writeKn : Int) (writeKey data : Speicher) (s : Welt) :
    (seEncryptedWrite32 k u dataSlot blk writeKn writeKey data s).1 = 0 ∨
      (seEncryptedWrite32 k u dataSlot blk writeKn writeKey data s).1 = -1 := by
  simp only [seEncryptedWrite32]
  split_ifs <;> simp

/-- **What one call of `se_encrypted_write32` logs**: commands after those of `s`, of which at most
    one is a Write -- one when the call returns `0` -- and the first 32 bytes of a Write's body
    are the plaintext XOR the call's GenDig digest. -/
theorem seEncryptedWrite32_befehle (dataSlot blk writeKn : Int) (writeKey data : Speicher)
    (s : Welt) :
    ∃ l, (seEncryptedWrite32 k u dataSlot blk writeKn writeKey data s).2.befehle = s.befehle ++ l ∧
      (l.filter (istWrite k)).length ≤ 1 ∧
      ((seEncryptedWrite32 k u dataSlot blk writeKn writeKey data s).1 = 0 →
        (l.filter (istWrite k)).length = 1) ∧
      ∀ c ∈ l.filter (istWrite k), c.body.take 32 =
        List.zipWith (· ^^^ ·) (data.lies 0 32) ((schreibDigest k u writeKn writeKey s).lies 0 32) := by
  have hp := pairUnlockSchleife_ohneWrite k u 3 s
  have hg := hp.trans (seGendigSlot_ohneWrite k u writeKn writeKey (sePairUnlock k u s).2.stapel
    (sePairUnlock k u s).2)
  simp only [seEncryptedWrite32]
  split
  · obtain ⟨l, e, f⟩ := hp
    exact ⟨l, e, by simp [f], by simp, by simp [f]⟩
  split
  · obtain ⟨l, e, f⟩ := hg
    exact ⟨l, e, by simp [f], by simp, by simp [f]⟩
  obtain ⟨l, e, f⟩ := hg
  refine ⟨l ++ [⟨k.opWrite, 0x80 ||| 2,
    (BitVec.ofInt 8 blk).setWidth 16 <<< 8 ||| (BitVec.ofInt 8 (dataSlot * 8)).setWidth 16,
    schreibKoerper k u (0x80 ||| 2) (BitVec.ofInt 8 (dataSlot * 8)) (BitVec.ofInt 8 blk)
      (schreibDigest k u writeKn writeKey s) data⟩], ?_, ?_, ?_, ?_⟩
  · split <;> simp [e, schreibDigest, Speicher.lies_ausListe_of_length (schreibKoerper_length k u _ _ _ _ _)]
  all_goals simp [f, istWrite, schreibKoerper_take]

end Befehle

/-! ## 5. A run, call by call -/

/-- One call of `se_encrypted_write32` in a run: its block number and plaintext, the worlds before
    and after it, and what it returned. -/
structure Aufruf where
  blk : Nat
  klartext : List Byte
  vorher : Welt
  nachher : Welt
  rc : Int

section Lauf

variable (k : Konstanten) (u : Umgebung) (dataSlot writeKn : Int) (writeKey : Speicher)

/-- The calls `schreibeBloecke` makes from block `blk` over the blocks `bs`. -/
def aufrufe : Nat → List (List Byte) → Welt → List Aufruf
  | _, [], _ => []
  | blk, b :: bs, s =>
    let r := seEncryptedWrite32 k u dataSlot blk writeKn writeKey (Speicher.ausListe b) s
    ⟨blk, b, s, r.2, r.1⟩ :: if r.1 < 0 then [] else aufrufe (blk + 1) bs r.2

/-- What a run over the blocks `bs` from block `blk` and world `s`, with the calls `as` and the
    result `r`, did: the spec's loop, call by call. -/
structure BlockLauf (blk : Nat) (bs : List (List Byte)) (s : Welt) (as : List Aufruf)
    (r : Int × Welt) : Prop where
  /-- Each is a call of `se_encrypted_write32` on its plaintext. -/
  aufruf : ∀ a ∈ as, seEncryptedWrite32 k u dataSlot a.blk writeKn writeKey
    (Speicher.ausListe a.klartext) a.vorher = (a.rc, a.nachher)
  /-- Each starts in the world the one before left, and the run ends in the last one's. -/
  welten : as.map Aufruf.vorher ++ [r.2] = s :: as.map Aufruf.nachher
  /-- Block numbers `blk, blk + 1, ...`. -/
  nummern : as.map Aufruf.blk = List.range' blk as.length
  /-- The blocks, in order. -/
  klartexte : as.map Aufruf.klartext = bs.take as.length
  /-- Every call but the last returned `0`. -/
  vorzeitig : ∀ a ∈ as.dropLast, a.rc = 0
  /-- When none failed, every block had its call. -/
  vollstaendig : (∀ a ∈ as, a.rc = 0) → as.length = bs.length
  /-- `0` exactly when every call returned `0`, else `-1`. -/
  code : (r.1 = 0 ↔ ∀ a ∈ as, a.rc = 0) ∧ (r.1 = 0 ∨ r.1 = -1)
  /-- The Write commands of the run are those of its calls, in order. -/
  writes : ∃ l, r.2.befehle = s.befehle ++ l ∧
    l.filter (istWrite k) = (as.map fun a => neueWrites k a.vorher a.nachher).flatten

/-- The Write commands a call logged, from the log it extends. -/
theorem neueWrites_eq {s s' : Welt} {l : List Befehl} (h : s'.befehle = s.befehle ++ l) :
    neueWrites k s s' = l.filter (istWrite k) := by
  simp [neueWrites, h]

/-- **A run of the spec's loop, call by call**: `schreibeBloecke` from block `blk` over `bs` is a
    `BlockLauf` with the calls `aufrufe`. -/
theorem schreibeBloecke_lauf (bs : List (List Byte)) : ∀ (blk : Nat) (s : Welt),
    BlockLauf k u dataSlot writeKn writeKey blk bs s (aufrufe k u dataSlot writeKn writeKey blk bs s)
      (schreibeBloecke k u dataSlot writeKn writeKey blk bs s) := by
  induction bs with
  | nil =>
    intro blk s
    exact ⟨by simp [aufrufe], by simp [aufrufe, schreibeBloecke], by simp [aufrufe],
      by simp [aufrufe], by simp [aufrufe], by simp [aufrufe], by simp [aufrufe, schreibeBloecke],
      ⟨[], by simp [schreibeBloecke], by simp [aufrufe]⟩⟩
  | cons b bs ih =>
    intro blk s
    obtain ⟨l, e, -, -, -⟩ := seEncryptedWrite32_befehle k u dataSlot blk writeKn writeKey
      (Speicher.ausListe b) s
    have hrc := seEncryptedWrite32_rc k u dataSlot blk writeKn writeKey (Speicher.ausListe b) s
    simp only [aufrufe, schreibeBloecke]
    generalize hr : seEncryptedWrite32 k u dataSlot blk writeKn writeKey (Speicher.ausListe b) s = r
      at e hrc
    have hw := neueWrites_eq k e
    by_cases h : r.1 < 0
    · -- the call failed: the run stops with `-1`
      simp only [h, if_true]
      exact ⟨by simp [hr], by simp, by simp, by simp, by simp, by simp; omega, by simp; omega,
        ⟨l, e, by simp [hw]⟩⟩
    · -- the call returned `0`: the rest of the run from `blk + 1`
      have h0 : r.1 = 0 := by omega
      simp only [h, if_false]
      obtain ⟨i1, i2, i3, i4, i5, i6, i7, l', e', f'⟩ := ih (blk + 1) r.2
      refine ⟨?_, ?_, ?_, ?_, ?_, ?_, ?_, ⟨l ++ l', by rw [e', e, List.append_assoc], ?_⟩⟩
      · simp only [List.mem_cons, forall_eq_or_imp]
        exact ⟨by rw [hr], i1⟩
      · simpa using i2
      · simpa [List.range'_succ] using i3
      · simpa using i4
      · intro a ha
        rcases hnil : aufrufe k u dataSlot writeKn writeKey (blk + 1) bs r.2 with _ | ⟨c, cs⟩
        · simp [hnil] at ha
        · rw [hnil, List.dropLast_cons_of_ne_nil (List.cons_ne_nil c cs)] at ha
          rcases List.mem_cons.mp ha with rfl | ha
          · exact h0
          · exact i5 a (hnil ▸ ha)
      · intro hall
        simpa using i6 fun a ha => hall a (List.mem_cons_of_mem _ ha)
      · simpa [h0] using i7
      · simp [List.filter_append, f', hw]

end Lauf

/-- XOR with the same key twice gives the plaintext back. -/
theorem entschluesseln (a d : List Byte) (h : a.length ≤ d.length) :
    List.zipWith (· ^^^ ·) (List.zipWith (· ^^^ ·) a d) d = a := by
  induction a generalizing d with
  | nil => simp
  | cons x a ih =>
    cases d with
    | nil => simp at h
    | cons y d => simp [BitVec.xor_assoc, ih d (by simpa using h)]

/-- Decrypting, call by call, the one Write command each call logged gives the plaintexts. -/
theorem entschluesseln_aufrufe (D : Aufruf → List Byte) (w : Aufruf → List Befehl)
    (as : List Aufruf) (h : ∀ a ∈ as, ∃ c, w a = [c] ∧
      c.body.take 32 = List.zipWith (· ^^^ ·) a.klartext (D a))
    (hl : ∀ a ∈ as, a.klartext.length ≤ (D a).length) :
    List.zipWith (fun c a => List.zipWith (· ^^^ ·) (c.body.take 32) (D a)) (as.map w).flatten as =
      as.map Aufruf.klartext := by
  induction as with
  | nil => simp
  | cons a as ih =>
    obtain ⟨c, hc, hb⟩ := h a (List.mem_cons_self a as)
    simp only [List.map_cons, List.flatten_cons, hc, List.singleton_append, List.zipWith_cons_cons,
      hb, entschluesseln _ _ (hl a (List.mem_cons_self a as))]
    rw [ih (fun a ha => h a (List.mem_cons_of_mem _ ha)) (fun a ha => hl a (List.mem_cons_of_mem _ ha))]

end PassportSe
