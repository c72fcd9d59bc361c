import BnkForge.Lib.Interleave
import BnkForge.Lib.PythonBytes

/-!
# The at-rest key on the keys volume

The key file and its `.operator` marker as `core.config`
(`backend/core/config.py:65–207`, `:333–395`) and `core.encryption`
(`backend/core/encryption.py:34–105`) read and write them when a process starts. Each check, read
and write of a file is one operation, which may fail; a file is opened for writing, and truncated,
before it is written.
-/

namespace BnkForge.Keys

open Interleave Python

/-! ### The volume -/

/-- Where the bytes of a key come from. No function of the program looks at it. -/
inductive Origin
  /-- The environment, a file put on the volume, or a restore. -/
  | operator
  /-- `Fernet.generate_key`. -/
  | application
  /-- Generated, and marked by the operator afterwards. -/
  | adopted
  deriving DecidableEq, Repr

/-- The bytes of a key; a value of `str` stands as its UTF-8. -/
structure KeyData where
  bytes : Bytes
  origin : Origin
  deriving DecidableEq, Repr

/-- What a path names. -/
inductive Node
  | absent
  | directory
  | file (data : KeyData)
  deriving DecidableEq, Repr

namespace Node

/-- `os.path.isfile`. -/
def isFile : Node → Bool
  | file _ => true
  | _ => false

/-- `os.path.exists`. -/
def exists? : Node → Bool
  | absent => false
  | _ => true

def bytes : Node → Bytes
  | file data => data.bytes
  | _ => []

/-- Writing at the start of a file keeps what lies behind. -/
def write (data : KeyData) (node : Node) : Node :=
  file ⟨data.bytes ++ node.bytes.drop data.bytes.length, data.origin⟩

end Node

/-- `encryption.key` and `encryption.key.operator`. -/
inductive File
  | key | marker
  deriving DecidableEq, Repr

/-- The keys volume. Two fields record what has happened on it: which processes have found no key
and have not written one since, and whether an operation has failed. -/
structure Volume (ι : Type) where
  key : Node
  marker : Node
  searching : ι → Bool
  faulty : Bool

def Volume.init (ι : Type) (key marker : Node) : Volume ι := ⟨key, marker, fun _ ↦ false, false⟩

/-- The operations of a process that starts. -/
inductive Op
  | isFile (f : File)
  | exists? (f : File)
  /-- `open` for reading and `read`. -/
  | read (f : File)
  /-- `open` for writing: the file is created, or truncated. -/
  | openTrunc (f : File)
  /-- `write` to the file just opened. -/
  | write (f : File) (data : KeyData)
  /-- `Fernet.generate_key`. -/
  | generate
  /-- `SystemExit`, or an exception that nothing catches. -/
  | exit

/-- The answers; a read that raises is answered by `none`, a write that raises by `false`. -/
abbrev Res : Op → Type
  | .isFile _ => Bool
  | .exists? _ => Bool
  | .read _ => Option KeyData
  | .openTrunc _ => Bool
  | .write _ _ => Bool
  | .generate => KeyData
  | .exit => Empty

/-- How an operation goes: as it should, failing with some of the bytes written, or with the key
that is drawn. -/
inductive Outcome
  | ok
  | fail (written : Nat)
  | key (drawn : Bytes)
  deriving DecidableEq, Repr

def Outcome.failed : Outcome → Bool
  | fail _ => true
  | _ => false

/-- The symbols of url-safe base64. -/
def isKeySymbol (b : UInt8) : Bool :=
  let n := b.toNat
  (48 ≤ n && n ≤ 57) || (65 ≤ n && n ≤ 90) || (97 ≤ n && n ≤ 122) || n == 45 || n == 95 || n == 61

/-- The keys that `Fernet.generate_key` draws: 32 bytes in url-safe base64. -/
def isGeneratedKey (bs : Bytes) : Bool := bs.length == 44 && bs.all isKeySymbol

section Handle

variable {ι : Type} [DecidableEq ι]

namespace Volume

def node (s : Volume ι) : File → Node
  | .key => s.key
  | .marker => s.marker

def setNode (s : Volume ι) (f : File) (node : Node) : Volume ι :=
  match f with
  | .key => { s with key := node }
  | .marker => { s with marker := node }

/-- Process `i` has looked for the key, or has done with writing it. -/
def search (s : Volume ι) (i : ι) (f : File) (on : Bool) : Volume ι :=
  match f with
  | .key => { s with searching := Function.update s.searching i on }
  | .marker => s

/-- An operation has failed. -/
def fault (s : Volume ι) : Volume ι := { s with faulty := true }

end Volume

/-- What the operations do. A check of a path that cannot be examined finds nothing there. -/
def handle : Handler (Volume ι) ι Outcome Op Res
  | i, .isFile f, .ok, s => some ((s.node f).isFile, s.search i f !(s.node f).isFile)
  | i, .isFile f, .fail _, s => some (false, (s.search i f true).fault)
  | i, .exists? f, .ok, s => some ((s.node f).exists?, s.search i f !(s.node f).exists?)
  | i, .exists? f, .fail _, s => some (false, (s.search i f true).fault)
  | i, .read f, .ok, s =>
    match s.node f with
    | .file data => some (some data, s.search i f data.bytes.isEmpty)
    | _ => some (none, (s.search i f true).fault)
  | i, .read f, .fail _, s => some (none, (s.search i f true).fault)
  | i, .openTrunc f, .ok, s =>
    match s.node f with
    | .directory => some (false, (s.search i f false).fault)
    | .absent => some (true, s.setNode f (.file ⟨[], .application⟩))
    | .file data => some (true, s.setNode f (.file ⟨[], data.origin⟩))
  | i, .openTrunc f, .fail _, s => some (false, (s.search i f false).fault)
  | i, .write f data, .ok, s =>
    some (true, (s.setNode f ((s.node f).write data)).search i f false)
  | i, .write f data, .fail n, s =>
    some (false, ((s.setNode f ((s.node f).write { data with bytes := data.bytes.take n })).search i f
      false).fault)
  | _, .generate, .key drawn, s =>
    if isGeneratedKey drawn then some (⟨drawn, .application⟩, s) else none
  | _, _, _, _ => none

end Handle

/-! ### Starting a process -/

/-- `Fernet(key)` of the `cryptography` package: which bytes it takes for a key. A key is 32 bytes in
url-safe base64, so that it holds symbols of it. -/
structure Fernet where
  valid : Bytes → Bool
  symbol_of_valid : ∀ bs, valid bs = true → ∃ b ∈ bs, isKeySymbol b = true

abbrev Start : Type → Type := Prog Op Res

/-- `os.path.isfile`. -/
abbrev pathIsFile (f : File) : Start Bool := Prog.call (Op.isFile f)

/-- `os.path.exists`. -/
abbrev pathExists (f : File) : Start Bool := Prog.call (Op.exists? f)

/-- `open` for reading and `read`. -/
abbrev readFile (f : File) : Start (Option KeyData) := Prog.call (Op.read f)

/-- `open` for writing. -/
abbrev openFile (f : File) : Start Bool := Prog.call (Op.openTrunc f)

/-- `write` to the file just opened. -/
abbrev writeFile (f : File) (data : KeyData) : Start Bool := Prog.call (Op.write f data)

/-- `Fernet.generate_key`. -/
abbrev generateKey : Start KeyData := Prog.call Op.generate

/-- `raise SystemExit`, or an exception that nothing catches. -/
def exit {α : Type} : Start α := .ask .exit Empty.elim

/-- `f.read().strip()` in text mode. Bytes that are not UTF-8 raise `UnicodeDecodeError`, which is
not caught. -/
def strippedText (data : KeyData) : Start KeyData :=
  match decode data.bytes with
  | none => exit
  | some text => return ⟨encode (strip (universalNewlines text)), data.origin⟩

def loadKeyText : Start KeyData := do
  if ← pathIsFile .key then
    match ← readFile .key with
    | none => return ⟨[], .application⟩
    | some data => strippedText data
  else return ⟨[], .application⟩

/-- `_write_key_file_0600`. -/
def writeKeyFile0600 (keyValue : KeyData) : Start Bool := do
  if ← openFile .key then writeFile .key keyValue else return false

/-- `_persist_or_load_key` of the encryption key: the key and whether it counts as generated. -/
def persistOrLoadKey : Start (KeyData × Bool) := do
  let markerPresent ← pathIsFile .marker
  let key ← loadKeyText
  if key.bytes ≠ [] then return (key, !markerPresent)
  else if markerPresent then
    -- a marker without a key: nothing is persisted
    let key ← generateKey
    return (key, true)
  else
    let key ← generateKey
    let _ ← writeKeyFile0600 key
    return (key, true)

/-- The marker that `_seed_encryption_key_if_absent` leaves beside the key it has written. -/
def markSeededKey : Start Unit := do
  if ← pathIsFile .marker then return ()
  else
    let _ ← openFile .marker
    return ()

/-- `_seed_encryption_key_if_absent`. -/
def seedEncryptionKeyIfAbsent (keyValue : KeyData) : Start (KeyData × Bool) := do
  let existing ← loadKeyText
  if existing.bytes ≠ [] then
    let markerPresent ← pathIsFile .marker
    return (existing, !markerPresent)
  else
    let written ← writeKeyFile0600 keyValue
    if written then markSeededKey
    return (keyValue, false)

/-- `Settings.__init__` as far as the encryption key goes, with `ENCRYPTION_KEY` of the environment:
an empty value is none. -/
def settingsInit (fernet : Fernet) (encryptionKey : Option Bytes) : Start (KeyData × Bool) :=
  match encryptionKey with
  | none => persistOrLoadKey
  | some [] => persistOrLoadKey
  | some value => if fernet.valid value then seedEncryptionKeyIfAbsent ⟨value, .operator⟩ else exit

def loadKeyBytes : Start KeyData := do
  if ← pathExists .key then
    match ← readFile .key with
    | none => return ⟨[], .application⟩
    | some data => return { data with bytes := stripBytes data.bytes }
  else return ⟨[], .application⟩

/-- `get_encryption_key`. -/
def getEncryptionKey (fernet : Fernet) : Start KeyData := do
  let existing ← loadKeyBytes
  if existing.bytes ≠ [] then
    if fernet.valid existing.bytes then return existing else exit
  else
    let key ← generateKey
    let _ ← writeKeyFile0600 key
    return key

/-- `Settings` is constructed, then `core.encryption` loads its key. -/
def startProcess (fernet : Fernet) (encryptionKey : Option Bytes) : Start KeyData := do
  let _ ← settingsInit fernet encryptionKey
  getEncryptionKey fernet

/-! ### Blank keys -/

/-- Bytes that both readers of the key file take for a key. -/
def NonBlank (bs : Bytes) : Prop :=
  stripBytes bs ≠ [] ∧ ∀ text, decode bs = some text → strip (universalNewlines text) ≠ []

instance (bs : Bytes) : Decidable (NonBlank bs) :=
  decidable_of_iff (stripBytes bs ≠ [] ∧
      ((decode bs).all fun text ↦ !(strip (universalNewlines text)).isEmpty) = true) (by
    rw [NonBlank]
    cases decode bs <;> simp)

theorem encode_eq_nil_iff {cs : List Char} : encode cs = [] ↔ cs = [] := by
  constructor
  · intro h
    cases cs with
    | nil => rfl
    | cons c cs =>
      have hc : String.utf8EncodeChar c = [] := by
        rw [encode, List.flatMap_cons, List.append_eq_nil_iff] at h
        exact h.1
      exact absurd hc String.utf8EncodeChar_ne_nil
  · rintro rfl
    rfl

theorem isSpaceByte_of_isKeySymbol {b : UInt8} (h : isKeySymbol b = true) :
    isSpaceByte b = false := by
  rw [← Bool.not_eq_true]
  intro hspace
  simp only [isSpaceByte, List.contains_iff_mem, List.mem_cons, List.not_mem_nil, or_false] at hspace
  simp only [isKeySymbol, Bool.or_eq_true, Bool.and_eq_true, decide_eq_true_eq, beq_iff_eq] at h
  omega

theorem nonBlank_of_isKeySymbol {bs : Bytes} {b : UInt8} (hb : b ∈ bs) (h : isKeySymbol b = true) :
    NonBlank bs := by
  have hspace := isSpaceByte_of_isKeySymbol h
  have hascii : b.toNat < 0x80 ∧ isSpace (Char.ofNat b.toNat) = false := by
    have hlt : b.toNat < 0x80 := by
      simp only [isKeySymbol, Bool.or_eq_true, Bool.and_eq_true, decide_eq_true_eq, beq_iff_eq] at h
      omega
    have hall : ∀ n < 0x80, isKeySymbol (UInt8.ofNat n) = true → isSpace (Char.ofNat n) = false := by
      decide
    exact ⟨hlt, hall _ hlt (by rwa [UInt8.ofNat_toNat])⟩
  constructor
  · rw [Ne, stripBytes_eq_nil_iff]
    intro hall
    rw [hall b hb] at hspace
    cases hspace
  · intro text htext
    rw [Ne, strip_eq_nil_iff, isSpace_universalNewlines]
    intro hall
    have := hall _ (mem_of_decode htext hb hascii.1)
    rw [hascii.2] at this
    cases this

theorem stripBytes_of_isGeneratedKey {bs : Bytes} (h : isGeneratedKey bs = true) :
    stripBytes bs = bs ∧ bs ≠ [] := by
  simp only [isGeneratedKey, Bool.and_eq_true, beq_iff_eq, List.all_eq_true] at h
  refine ⟨stripBytes_eq_self fun b hb ↦ isSpaceByte_of_isKeySymbol (h.2 b hb), ?_⟩
  rintro rfl
  cases h.1

/-! ### Keys for the examples -/

/-- 32 zero bytes in url-safe base64. -/
def zeroKey : Bytes := List.replicate 43 65 ++ [61]

/-- Another key of 32 bytes. -/
def otherKey : Bytes := List.replicate 43 69 ++ [61]

/-- `Fernet` on keys without white space in them. -/
def plainFernet : Fernet where
  valid := isGeneratedKey
  symbol_of_valid bs h := by
    simp only [isGeneratedKey, Bool.and_eq_true, beq_iff_eq, List.all_eq_true] at h
    obtain ⟨b, hb⟩ := List.exists_mem_of_length_pos (l := bs) (by omega)
    exact ⟨b, hb, h.2 b hb⟩

end BnkForge.Keys
