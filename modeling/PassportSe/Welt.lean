import Mathlib.Data.BitVec

/-!
# The driver's world: bytes, buffers, the wire and the counters

`se.c` drives the secure element over one half-duplex wire (`UART4` in single-wire mode). This
file fixes what the model of the driver reads and writes:

* a byte is `BitVec 8` (`uint8_t`); a C buffer seen from its base address is a memory
  `Speicher` (byte `i` from there on), written by `Speicher.schreibe` and read by
  `Speicher.lies` -- reads past a buffer are reads of this memory, so a theorem that a function
  reads only `n` bytes says that its result does not depend on the memory from `n` on;
* the wire: every byte the driver puts into `TDR` is appended to `Welt.tx`; what arrives for the
  `n`-th read of a response is `Welt.antwort n`, chosen by the chip or by anyone on the wire;
* the diagnostic counters of `se.c` are `uint32_t`, so `BitVec 32`: they wrap;
* `current_opcode`, the RNG behind `rng_buffer`, what an uninitialised stack buffer holds, and a
  ghost log of the commands `se_write` frames (`Welt.befehle`, not a variable of `se.c`).

The values of `se.h` and `se-config.h` and the collaborators (SHA-256, `rom_secrets`,
`check_equal`) are not under `src/`: they are parameters (`Konstanten`, `Umgebung`).
-/

namespace PassportSe

/-- `uint8_t`. -/
abbrev Byte := BitVec 8

/-! ## 1. Buffers -/

/-- A C buffer from its base address on: byte `i` is `m i`. -/
abbrev Speicher := Nat → Byte

/-- `w` written into `m` from offset `o` (a `memcpy`, or a loop of `*(p++) = …`). -/
def Speicher.schreibe (m : Speicher) (o : Nat) (w : List Byte) : Speicher :=
  fun i => if h : o ≤ i ∧ i - o < w.length then w.get ⟨i - o, h.2⟩ else m i

/-- The `n` bytes of `m` from offset `o`, as `memcpy(…, m + o, n)` reads them. -/
def Speicher.lies (m : Speicher) (o n : Nat) : List Byte :=
  (List.range n).map fun i => m (o + i)

/-- The buffer `m + o`. -/
def Speicher.ab (m : Speicher) (o : Nat) : Speicher := fun i => m (o + i)

@[simp] theorem Speicher.ab_apply (m : Speicher) (o i : Nat) : m.ab o i = m (o + i) := rfl

@[simp] theorem Speicher.lies_ab (m : Speicher) (o n : Nat) : (m.ab o).lies 0 n = m.lies o n := by
  simp [Speicher.lies, Speicher.ab]

/-- A byte list as a buffer; past its end the buffer reads zero. -/
def Speicher.ausListe (w : List Byte) : Speicher := fun i => w.getD i 0

@[simp] theorem Speicher.lies_length (m : Speicher) (o n : Nat) : (m.lies o n).length = n := by
  simp [Speicher.lies]

@[simp] theorem Speicher.getElem_lies (m : Speicher) (o n i : Nat) (h : i < (m.lies o n).length) :
    (m.lies o n)[i] = m (o + i) := by
  simp [Speicher.lies]

theorem Speicher.schreibe_innen (m : Speicher) (o : Nat) (w : List Byte) (i : Nat)
    (h : i < w.length) : m.schreibe o w (o + i) = w[i] := by
  simp [Speicher.schreibe, h]

/-- What is read back from where `w` was written is `w`. -/
@[simp] theorem Speicher.lies_schreibe (m : Speicher) (o : Nat) (w : List Byte) :
    (m.schreibe o w).lies o w.length = w := by
  apply List.ext_getElem (by simp)
  intro i h _
  simp only [Speicher.getElem_lies]
  exact Speicher.schreibe_innen m o w i (by simpa using h)

theorem Speicher.ausListe_getElem (w : List Byte) (i : Nat) (h : i < w.length) :
    Speicher.ausListe w i = w[i] := by
  simp [Speicher.ausListe, List.getD_eq_getElem?_getD, h]

@[simp] theorem Speicher.lies_ausListe (w : List Byte) : (Speicher.ausListe w).lies 0 w.length = w := by
  apply List.ext_getElem (by simp)
  intro i h _
  simp only [Speicher.getElem_lies, Nat.zero_add]
  exact Speicher.ausListe_getElem w i (by simpa using h)

theorem Speicher.ausListe_append_links (x y : List Byte) {i : Nat} (h : i < x.length) :
    Speicher.ausListe (x ++ y) i = Speicher.ausListe x i := by
  simp [Speicher.ausListe, List.getD_eq_getElem?_getD, List.getElem?_append_left h]

theorem Speicher.ausListe_append_rechts (x y : List Byte) (i : Nat) :
    Speicher.ausListe (x ++ y) (x.length + i) = Speicher.ausListe y i := by
  simp [Speicher.ausListe, List.getD_eq_getElem?_getD, List.getElem?_append_right]

/-- Reading a list-backed buffer from `o` to its end gives the list without its first `o`. -/
theorem Speicher.lies_ausListe_drop (w : List Byte) (o : Nat) :
    (Speicher.ausListe w).lies o (w.length - o) = w.drop o := by
  apply List.ext_getElem (by simp)
  intro i h _
  simp only [Speicher.getElem_lies, List.getElem_drop]
  exact Speicher.ausListe_getElem w _ (by simp at h; omega)

/-- Reading `n` bytes of a list-backed buffer from its start gives the list's first `n`. -/
theorem Speicher.lies_ausListe_take (w : List Byte) (n : Nat) (h : n ≤ w.length) :
    (Speicher.ausListe w).lies 0 n = w.take n := by
  apply List.ext_getElem (by simp; omega)
  intro i h1 _
  simp only [Speicher.getElem_lies, Nat.zero_add, List.getElem_take]
  exact Speicher.ausListe_getElem w _ (by simp at h1; omega)

@[simp] theorem Speicher.lies_ausListe_append (x y : List Byte) :
    (Speicher.ausListe (x ++ y)).lies 0 x.length = x := by
  apply List.ext_getElem (by simp)
  intro i h _
  simp only [Speicher.getElem_lies, Nat.zero_add]
  rw [Speicher.ausListe_append_links _ _ (by simpa using h),
    Speicher.ausListe_getElem _ _ (by simpa using h)]

/-- The buffer `m` with `m + o` replaced by `m'`, as a callee handed `m + o` leaves it. -/
def Speicher.einsetzen (m : Speicher) (o : Nat) (m' : Speicher) : Speicher :=
  fun i => if o ≤ i then m' (i - o) else m i

@[simp] theorem Speicher.schreibe_nil (m : Speicher) (o : Nat) : m.schreibe o [] = m := by
  funext i; simp [Speicher.schreibe]

/-- Handing `m + o` to a callee that writes `w` at its start writes `w` at `o`. -/
theorem Speicher.einsetzen_schreibe (m : Speicher) (o : Nat) (w : List Byte) :
    m.einsetzen o ((m.ab o).schreibe 0 w) = m.schreibe o w := by
  funext i
  by_cases h : o ≤ i
  · simp [Speicher.einsetzen, Speicher.schreibe, h, Nat.add_sub_cancel' h]
  · simp [Speicher.einsetzen, Speicher.schreibe, h]

/-- Writing `w` at `o` and then `w'` right after it writes `w ++ w'` at `o`. -/
theorem Speicher.schreibe_append (m : Speicher) (o : Nat) (w w' : List Byte) :
    (m.schreibe o w).schreibe (o + w.length) w' = m.schreibe o (w ++ w') := by
  funext i
  simp only [Speicher.schreibe, List.length_append]
  by_cases h1 : o ≤ i ∧ i - o < w.length
  · rw [dif_neg (by omega), dif_pos h1, dif_pos (by omega)]
    simp [List.getElem_append_left h1.2]
  · by_cases h2 : o + w.length ≤ i ∧ i - (o + w.length) < w'.length
    · rw [dif_pos h2, dif_pos (by omega)]
      simp [List.getElem_append_right (show w.length ≤ i - o by omega),
        show i - o - w.length = i - (o + w.length) by omega]
    · rw [dif_neg h2, dif_neg h1, dif_neg (by omega)]

@[simp] theorem Speicher.lies_zero (m : Speicher) (o : Nat) : m.lies o 0 = [] := rfl

/-- `a` bytes from `o`, then `b` more, are `a + b` bytes from `o`. -/
theorem Speicher.lies_append (m : Speicher) (o a b : Nat) :
    m.lies o a ++ m.lies (o + a) b = m.lies o (a + b) := by
  simp [Speicher.lies, List.range_add, Nat.add_assoc]

theorem Speicher.lies_ausListe_of_length {w : List Byte} {n : Nat} (h : w.length = n) :
    (Speicher.ausListe w).lies 0 n = w := by
  subst h; exact Speicher.lies_ausListe w

/-- A zeroed buffer with `x` copied to its start is the list `x` padded with zeros. -/
theorem Speicher.schreibe_null (x : List Byte) (n : Nat) :
    Speicher.schreibe (fun _ => 0) 0 x = Speicher.ausListe (x ++ List.replicate n 0) := by
  funext i
  by_cases h : i < x.length
  · simp [Speicher.schreibe, h, Speicher.ausListe_append_links x _ h, Speicher.ausListe_getElem x i h]
  · obtain ⟨j, rfl⟩ := Nat.exists_eq_add_of_le (Nat.le_of_not_lt h)
    rw [Speicher.ausListe_append_rechts]
    simp [Speicher.schreibe, Speicher.ausListe, List.getD_eq_getElem?_getD, List.getElem?_replicate]
    split_ifs <;> first | omega | rfl

/-! ## 2. What is not under `src/` -/

/-- The values of `se.h` and `se-config.h` that `se.c` uses: the opcodes (`seopcode_t`, sent as
    one byte) and `KEYNUM_pairing`. The chip's command set gives the opcodes different values. -/
structure Konstanten where
  opInfo : Byte
  opRead : Byte
  opWrite : Byte
  opNonce : Byte
  opGenDig : Byte
  opMAC : Byte
  opCheckMac : Byte
  keynumPairing : Byte
  verschieden : [opInfo, opRead, opWrite, opNonce, opGenDig, opMAC, opCheckMac].Nodup

/-- No opcode `se.c` sends but `OP_Info` is `OP_Info`. -/
theorem Konstanten.ne_opInfo (k : Konstanten) :
    k.opRead ≠ k.opInfo ∧ k.opWrite ≠ k.opInfo ∧ k.opNonce ≠ k.opInfo ∧ k.opGenDig ≠ k.opInfo ∧
      k.opMAC ≠ k.opInfo ∧ k.opCheckMac ≠ k.opInfo := by
  have h := k.verschieden
  simp only [List.nodup_cons, List.mem_cons, List.mem_singleton, not_or, List.not_mem_nil] at h
  obtain ⟨⟨h1, h2, h3, h4, h5, h6, -⟩, -⟩ := h
  exact ⟨Ne.symm h1, Ne.symm h2, Ne.symm h3, Ne.symm h4, Ne.symm h5, Ne.symm h6⟩

/-- A choice of the constants for the examples: the opcodes of the chip's command set, and the
    pairing secret in slot 1 (as `se_checkmac`'s comment has it). -/
def konstantenBeispiel : Konstanten where
  opInfo := 0x30
  opRead := 0x02
  opWrite := 0x12
  opNonce := 0x16
  opGenDig := 0x15
  opMAC := 0x08
  opCheckMac := 0x28
  keynumPairing := 1
  verschieden := by decide

/-- The collaborators: SHA-256 (`sha256_init`, `sha256_update`s, `sha256_final`: the digest of
    the concatenated updates, 32 bytes), `rom_secrets`, and the string `se_checkmac` copies into
    `req.ch3` ("content doesn't matter"). -/
structure Umgebung where
  sha256 : List Byte → List Byte
  sha256_length : ∀ m, (sha256 m).length = 32
  pairingSecret : Speicher
  seSerialNumber : Speicher
  ch3Text : Speicher

/-- Collaborators for the examples: a stand-in for SHA-256 that has the digest's length (no
    theorem depends on its values), and zeroed secrets. -/
def umgebungBeispiel : Umgebung where
  sha256 _ := List.replicate 32 0
  sha256_length _ := List.length_replicate 32 0
  pairingSecret _ := 0
  seSerialNumber _ := 0
  ch3Text _ := 0

/-- Modelled from the spec: `check_equal` (`utils.c`, not under `src/`) compares `len` bytes of
    two buffers for exact equality. -/
def checkEqual (a b : Speicher) (len : Nat) : Bool :=
  a.lies 0 len == b.lies 0 len

/-! ## 3. The wire, the counters, the state -/

/-- The bytes the driver writes to `TDR` for the `ioflag_t` values. -/
inductive Ioflag where
  | cmd
  | tx
  | idle
  | sleep
  deriving DecidableEq, Repr

/-- `IOFLAG_CMD = 0x77`, `IOFLAG_TX = 0x88`, `IOFLAG_IDLE = 0xBB`, `IOFLAG_SLEEP = 0xCC`. -/
def Ioflag.wert : Ioflag → Byte
  | .cmd => 0x77
  | .tx => 0x88
  | .idle => 0xBB
  | .sleep => 0xCC

/-- What reaches `se_read_response` after its echo flush: the bytes the UART receives up to the
    first `_read_byte` that times out, and whether that timeout is the SysTick failsafe rather
    than the UART's receiver timeout (RTOF). -/
structure Antwort where
  pulse : List Byte
  failsafe : Bool := false
  deriving DecidableEq, Repr

/-- The counters of `se.c`. -/
structure Stats where
  crcErrors : BitVec 32 := 0
  notReadyN : BitVec 32 := 0
  shortError : BitVec 32 := 0
  lenError : BitVec 32 := 0
  lenErrorTwo : BitVec 32 := 0
  lnRetry : BitVec 32 := 0
  retryOut : BitVec 32 := 0
  wdgtimeout : BitVec 32 := 0
  rtof : BitVec 32 := 0
  rxne : BitVec 32 := 0
  notrxne : BitVec 32 := 0
  deriving DecidableEq, Repr

/-- A command as `se_write` is asked to frame it. -/
structure Befehl where
  opcode : Byte
  p1 : Byte
  p2 : BitVec 16
  body : List Byte
  deriving DecidableEq, Repr

/-- The state the driver runs in. `antwort`, `zufall` and `stapel` are the environment: the wire,
    the bytes `rng_buffer` hands out, and what an uninitialised stack buffer holds; `gelesen` and
    `gezogen` count what has been taken of the first two. -/
structure Welt where
  tx : List Byte
  stats : Stats
  currentOpcode : Byte
  antwort : Nat → Antwort
  gelesen : Nat
  zufall : Nat → Byte
  gezogen : Nat
  stapel : Speicher
  befehle : List Befehl

namespace Welt

/-- The world at reset: nothing sent, the counters and `current_opcode` zero (C zero-initialises
    them), nothing taken of the wire or of the RNG. -/
def start (antwort : Nat → Antwort) (zufall : Nat → Byte) (stapel : Speicher) : Welt :=
  { tx := [], stats := {}, currentOpcode := 0, antwort, gelesen := 0, zufall, gezogen := 0,
    stapel, befehle := [] }

/-- Bytes put on the wire, one `_send_byte` each. -/
def sende (s : Welt) (p : List Byte) : Welt := { s with tx := s.tx ++ p }

/-- `rng_buffer(buf, n)`: the next `n` random bytes. -/
def rngBuffer (s : Welt) (n : Nat) : List Byte × Welt :=
  ((List.range n).map fun i => s.zufall (s.gezogen + i), { s with gezogen := s.gezogen + n })

@[simp] theorem rngBuffer_length (s : Welt) (n : Nat) : (s.rngBuffer n).1.length = n := by
  simp [rngBuffer]
@[simp] theorem rngBuffer_tx (s : Welt) (n : Nat) : (s.rngBuffer n).2.tx = s.tx := rfl
@[simp] theorem rngBuffer_stats (s : Welt) (n : Nat) : (s.rngBuffer n).2.stats = s.stats := rfl
@[simp] theorem rngBuffer_gelesen (s : Welt) (n : Nat) : (s.rngBuffer n).2.gelesen = s.gelesen := rfl
@[simp] theorem rngBuffer_antwort (s : Welt) (n : Nat) : (s.rngBuffer n).2.antwort = s.antwort := rfl
@[simp] theorem rngBuffer_currentOpcode (s : Welt) (n : Nat) :
    (s.rngBuffer n).2.currentOpcode = s.currentOpcode := rfl
@[simp] theorem rngBuffer_stapel (s : Welt) (n : Nat) : (s.rngBuffer n).2.stapel = s.stapel := rfl
@[simp] theorem rngBuffer_befehle (s : Welt) (n : Nat) : (s.rngBuffer n).2.befehle = s.befehle := rfl

/-- One counter changed. -/
def zaehle (s : Welt) (f : Stats → Stats) : Welt := { s with stats := f s.stats }

@[simp] theorem sende_tx (s : Welt) (p : List Byte) : (s.sende p).tx = s.tx ++ p := rfl
@[simp] theorem sende_stats (s : Welt) (p : List Byte) : (s.sende p).stats = s.stats := rfl
@[simp] theorem sende_gelesen (s : Welt) (p : List Byte) : (s.sende p).gelesen = s.gelesen := rfl
@[simp] theorem sende_antwort (s : Welt) (p : List Byte) : (s.sende p).antwort = s.antwort := rfl
@[simp] theorem sende_currentOpcode (s : Welt) (p : List Byte) :
    (s.sende p).currentOpcode = s.currentOpcode := rfl
@[simp] theorem sende_stapel (s : Welt) (p : List Byte) : (s.sende p).stapel = s.stapel := rfl
@[simp] theorem sende_befehle (s : Welt) (p : List Byte) : (s.sende p).befehle = s.befehle := rfl
@[simp] theorem sende_zufall (s : Welt) (p : List Byte) : (s.sende p).zufall = s.zufall := rfl
@[simp] theorem sende_gezogen (s : Welt) (p : List Byte) : (s.sende p).gezogen = s.gezogen := rfl
@[simp] theorem sende_nil (s : Welt) : s.sende [] = s := by simp [sende]
@[simp] theorem sende_sende (s : Welt) (p q : List Byte) : (s.sende p).sende q = s.sende (p ++ q) := by
  simp [sende]

@[simp] theorem zaehle_tx (s : Welt) (f : Stats → Stats) : (s.zaehle f).tx = s.tx := rfl
@[simp] theorem zaehle_stats (s : Welt) (f : Stats → Stats) : (s.zaehle f).stats = f s.stats := rfl
@[simp] theorem zaehle_gelesen (s : Welt) (f : Stats → Stats) : (s.zaehle f).gelesen = s.gelesen := rfl
@[simp] theorem zaehle_antwort (s : Welt) (f : Stats → Stats) : (s.zaehle f).antwort = s.antwort := rfl
@[simp] theorem zaehle_currentOpcode (s : Welt) (f : Stats → Stats) :
    (s.zaehle f).currentOpcode = s.currentOpcode := rfl
@[simp] theorem zaehle_stapel (s : Welt) (f : Stats → Stats) : (s.zaehle f).stapel = s.stapel := rfl
@[simp] theorem zaehle_zufall (s : Welt) (f : Stats → Stats) : (s.zaehle f).zufall = s.zufall := rfl
@[simp] theorem zaehle_gezogen (s : Welt) (f : Stats → Stats) : (s.zaehle f).gezogen = s.gezogen := rfl
@[simp] theorem zaehle_befehle (s : Welt) (f : Stats → Stats) : (s.zaehle f).befehle = s.befehle := rfl


end Welt

end PassportSe
