import Mathlib.Algebra.Group.Nat.Basic
import Mathlib.Data.List.Basic

/-
  The file streams of hnswlib (third_party/hnswlib/iostream.h) that an index is saved to and
  loaded from. `FileOutputStream::savePOD` writes the `sizeof(T)` bytes of a value as they lie
  in memory and `saveStringBuffer` writes the bytes of a buffer; `FileInputStream::loadPOD`
  and `loadStringBuffer` read as many bytes back and fail when the file has fewer left.

  Model. A file is its list of bytes. The target is x86-64: little-endian, `size_t` and
  `double` of 8 bytes, `unsigned int` and `int` of 4. A value is kept as its object
  representation, the number below `256 ^ sizeof(T)` whose little-endian bytes are the value's
  bytes: the streams copy bytes and never read a value, so an `int` is its two's-complement
  pattern and a `double` its IEEE pattern. An `std::ofstream` or `std::ifstream` is what it
  has written or has left to read, with its state flag: a `read` that runs past the end takes
  what is left and fails, and a failed stream fails every later call without moving. Opening
  the file (`Create`) and what makes a write fail (a full disk) are left out.

  Proved:
  * `decodeLE_encodeLE`: the bytes of a value read back give the value (mod `256 ^ w`).
  * `load_bytes`: a load of the right kind, on a good stream that starts with the bytes of
    a saved item, returns the item and leaves the reader right after it, still good.
  * `loadAll_saveAll`: round trip. Any sequence of values and buffers saved into a new file is
    read back, in order, by the same sequence of loads, which ends at the end of the file with
    the reader still good.
  * `loadAll_truncated`: a file cut short anywhere inside what was saved makes the sequence
    of loads fail, with the message of the load that ran past the end and the reader failed at
    the end of the file.
-/

namespace ValkeySearch

/-! ## Little-endian bytes -/

/-- The `w` bytes of `n`, least significant first; bits from `8 * w` up are dropped. -/
def encodeLE : Nat → Nat → List UInt8
  | 0, _ => []
  | w + 1, n => UInt8.ofNat (n % 256) :: encodeLE w (n / 256)

/-- The number whose little-endian bytes are the given ones. -/
def decodeLE : List UInt8 → Nat
  | [] => 0
  | b :: bs => b.toNat + 256 * decodeLE bs

@[simp] theorem length_encodeLE : ∀ w n, (encodeLE w n).length = w
  | 0, _ => rfl
  | w + 1, n => by rw [encodeLE, List.length_cons, length_encodeLE w]

theorem decodeLE_encodeLE : ∀ w n, decodeLE (encodeLE w n) = n % 256 ^ w
  | 0, n => by rw [Nat.pow_zero, Nat.mod_one]; rfl
  | w + 1, n => by
    have hb : (UInt8.ofNat (n % 256)).toNat = n % 256 :=
      UInt8.toNat_ofNat_of_lt (Nat.mod_lt n (by decide))
    rw [encodeLE, decodeLE, hb, decodeLE_encodeLE w, Nat.pow_succ', Nat.mod_mul]

theorem decodeLE_lt : ∀ l : List UInt8, decodeLE l < 256 ^ l.length
  | [] => Nat.one_pos
  | b :: bs => by
    have hb := b.toNat_lt_size
    have := decodeLE_lt bs
    rw [decodeLE, List.length_cons, Nat.pow_succ']
    change b.toNat < 256 at hb
    omega

/-! ## Values -/

/-- The POD types the streams save and load. -/
inductive PodType
  | sizeT
  | unsigned
  | signed
  | double
  deriving DecidableEq

/-- `sizeof(T)` on x86-64. -/
def PodType.size : PodType → Nat
  | .sizeT => 8
  | .unsigned => 4
  | .signed => 4
  | .double => 8

/-- A value of a POD type as its object representation. -/
structure Pod where
  type : PodType
  bits : Nat
  bits_lt : bits < 256 ^ type.size
  deriving DecidableEq

/-- The bytes `savePOD` writes for a value. -/
def Pod.bytes (v : Pod) : List UInt8 := encodeLE v.type.size v.bits

/-- What a saver writes, in order: values and buffers. -/
inductive Saved
  | pod (val : Pod)
  | stringBuffer (buf : List UInt8)
  deriving DecidableEq

/-- The bytes an item takes in the file. -/
def Saved.bytes : Saved → List UInt8
  | .pod val => val.bytes
  | .stringBuffer buf => buf

/-- The bytes of a sequence of items, one after the other. -/
def Saved.bytesAll (items : List Saved) : List UInt8 :=
  (items.map Saved.bytes).flatten

/-- What a loader asks for: a value of a POD type, or a buffer of a length. -/
inductive LoadRequest
  | pod (type : PodType)
  | stringBuffer (len : Nat)

/-- The number of bytes a load reads. -/
def LoadRequest.len : LoadRequest → Nat
  | .pod type => type.size
  | .stringBuffer len => len

/-- The load that reads an item back. -/
def Saved.request : Saved → LoadRequest
  | .pod val => .pod val.type
  | .stringBuffer buf => .stringBuffer buf.length

@[simp] theorem Saved.len_request (item : Saved) : item.request.len = item.bytes.length := by
  cases item <;> simp [Saved.request, Saved.bytes, LoadRequest.len, Pod.bytes]

/-! ## `FileOutputStream` -/

/-- `FileOutputStream`: the bytes its `std::ofstream` has written, and whether it is good. -/
structure FileOutputStream where
  file : List UInt8
  good : Bool

namespace FileOutputStream

/-- `output_->write(bytes)` followed by `if (*output_)`. -/
def write (o : FileOutputStream) (bytes : List UInt8) (message : String) :
    Except String Unit × FileOutputStream :=
  if o.good then (.ok (), { o with file := o.file ++ bytes }) else (.error message, o)

/-- `savePOD`. -/
def savePOD (o : FileOutputStream) (val : Pod) : Except String Unit × FileOutputStream :=
  o.write val.bytes "Error writing POD to file"

/-- `saveStringBuffer(str, len)`, the buffer being the `len` bytes at `str`. -/
def saveStringBuffer (o : FileOutputStream) (str : List UInt8) :
    Except String Unit × FileOutputStream :=
  o.write str "Error writing string buffer to file"

/-- `saveSizeT`. -/
def saveSizeT (o : FileOutputStream) (val : UInt64) : Except String Unit × FileOutputStream :=
  o.savePOD ⟨.sizeT, val.toNat, val.toNat_lt_size⟩

/-- `saveUnsigned`. -/
def saveUnsigned (o : FileOutputStream) (val : UInt32) : Except String Unit × FileOutputStream :=
  o.savePOD ⟨.unsigned, val.toNat, val.toNat_lt_size⟩

/-- `saveSigned`, the `int` given by its two's-complement pattern. -/
def saveSigned (o : FileOutputStream) (val : BitVec 32) : Except String Unit × FileOutputStream :=
  o.savePOD ⟨.signed, val.toNat, val.isLt⟩

/-- `saveDouble`, the `double` given by its IEEE pattern. -/
def saveDouble (o : FileOutputStream) (val : UInt64) : Except String Unit × FileOutputStream :=
  o.savePOD ⟨.double, val.toNat, val.toNat_lt_size⟩

/-- One item saved. -/
def save (o : FileOutputStream) : Saved → Except String Unit × FileOutputStream
  | .pod val => o.savePOD val
  | .stringBuffer buf => o.saveStringBuffer buf

/-- A saver's sequence of saves, stopping at the first error (`RETURN_IF_ERROR`). -/
def saveAll (o : FileOutputStream) : List Saved → Except String Unit × FileOutputStream
  | [] => (.ok (), o)
  | item :: rest =>
    match o.save item with
    | (.error e, o') => (.error e, o')
    | (.ok (), o') => o'.saveAll rest

theorem save_of_good (file : List UInt8) (item : Saved) :
    (⟨file, true⟩ : FileOutputStream).save item = (.ok (), ⟨file ++ item.bytes, true⟩) := by
  cases item <;> rfl

theorem saveAll_of_good (file : List UInt8) (items : List Saved) :
    (⟨file, true⟩ : FileOutputStream).saveAll items =
      (.ok (), ⟨file ++ Saved.bytesAll items, true⟩) := by
  induction items generalizing file with
  | nil => simp [saveAll, Saved.bytesAll]
  | cons item rest ih =>
    rw [saveAll, save_of_good]
    dsimp only
    rw [ih]
    simp [Saved.bytesAll]

end FileOutputStream

/-! ## `FileInputStream` -/

/-- `FileInputStream`: the bytes its `std::ifstream` has left to read, and whether it is
good. -/
structure FileInputStream where
  rest : List UInt8
  good : Bool

namespace FileInputStream

/-- `input_->read(buf, n)` followed by `if (*input_)`: on a good stream with `n` bytes left,
those bytes; on a good stream with fewer, what is left is taken and the stream fails; a failed
stream reads nothing. -/
def read (i : FileInputStream) (n : Nat) :
    Option { b : List UInt8 // b.length = n } × FileInputStream :=
  if h : i.good ∧ n ≤ i.rest.length then
    (some ⟨i.rest.take n, List.length_take_of_le h.2⟩, ⟨i.rest.drop n, true⟩)
  else if i.good then (none, ⟨[], false⟩)
  else (none, i)

/-- `loadPOD`. -/
def loadPOD (i : FileInputStream) (type : PodType) : Except String Pod × FileInputStream :=
  match i.read type.size with
  | (some bytes, i') => (.ok ⟨type, decodeLE bytes.1, (decodeLE_lt bytes.1).trans_eq (by rw [bytes.2])⟩, i')
  | (none, i') => (.error "Error reading POD from file", i')

/-- `loadStringBuffer(len)`. -/
def loadStringBuffer (i : FileInputStream) (len : Nat) :
    Except String (List UInt8) × FileInputStream :=
  match i.read len with
  | (some bytes, i') => (.ok bytes.1, i')
  | (none, i') => (.error "Error reading string buffer from file", i')

/-- `loadSizeT`. -/
def loadSizeT (i : FileInputStream) : Except String UInt64 × FileInputStream :=
  let (r, i') := i.loadPOD .sizeT
  (r.map fun v => UInt64.ofNat v.bits, i')

/-- `loadUnsigned`. -/
def loadUnsigned (i : FileInputStream) : Except String UInt32 × FileInputStream :=
  let (r, i') := i.loadPOD .unsigned
  (r.map fun v => UInt32.ofNat v.bits, i')

/-- `loadSigned`, the `int` read as its two's-complement pattern. -/
def loadSigned (i : FileInputStream) : Except String (BitVec 32) × FileInputStream :=
  let (r, i') := i.loadPOD .signed
  (r.map fun v => BitVec.ofNat 32 v.bits, i')

/-- `loadDouble`, the `double` read as its IEEE pattern. -/
def loadDouble (i : FileInputStream) : Except String UInt64 × FileInputStream :=
  let (r, i') := i.loadPOD .double
  (r.map fun v => UInt64.ofNat v.bits, i')

/-- One load. -/
def load (i : FileInputStream) : LoadRequest → Except String Saved × FileInputStream
  | .pod type =>
    match i.loadPOD type with
    | (.ok val, i') => (.ok (.pod val), i')
    | (.error e, i') => (.error e, i')
  | .stringBuffer len =>
    match i.loadStringBuffer len with
    | (.ok buf, i') => (.ok (.stringBuffer buf), i')
    | (.error e, i') => (.error e, i')

/-- A loader's sequence of loads, stopping at the first error (`RETURN_IF_ERROR`). -/
def loadAll (i : FileInputStream) : List LoadRequest → Except String (List Saved) × FileInputStream
  | [] => (.ok [], i)
  | request :: rest =>
    match i.load request with
    | (.error e, i') => (.error e, i')
    | (.ok item, i') =>
      match i'.loadAll rest with
      | (.error e, i'') => (.error e, i'')
      | (.ok items, i'') => (.ok (item :: items), i'')

theorem read_append {bytes : List UInt8} {n : Nat} (h : bytes.length = n) (rest : List UInt8) :
    (⟨bytes ++ rest, true⟩ : FileInputStream).read n = (some ⟨bytes, h⟩, ⟨rest, true⟩) := by
  subst h
  rw [read, dif_pos ⟨rfl, by simp⟩]
  simp

theorem read_short {rest : List UInt8} {n : Nat} (h : rest.length < n) :
    (⟨rest, true⟩ : FileInputStream).read n = (none, ⟨[], false⟩) := by
  rw [read, dif_neg fun h' => by dsimp only at h'; omega, if_pos rfl]

theorem load_bytes (item : Saved) (rest : List UInt8) :
    (⟨item.bytes ++ rest, true⟩ : FileInputStream).load item.request =
      (.ok item, ⟨rest, true⟩) := by
  cases item with
  | pod val =>
    obtain ⟨type, bits, hlt⟩ := val
    simp only [Saved.request, Saved.bytes, Pod.bytes, load, loadPOD,
      read_append (length_encodeLE _ _), decodeLE_encodeLE, Nat.mod_eq_of_lt hlt]
  | stringBuffer buf =>
    simp only [Saved.request, Saved.bytes, load, loadStringBuffer, read_append rfl]

/-- A load that runs past the end of a good stream fails with its own message and leaves the
stream failed at the end of the file. -/
theorem load_short {rest : List UInt8} (request : LoadRequest)
    (h : rest.length < request.len) :
    ∃ e, (⟨rest, true⟩ : FileInputStream).load request = (.error e, ⟨[], false⟩) ∧
      (e = "Error reading POD from file" ∨ e = "Error reading string buffer from file") := by
  cases request with
  | pod type =>
    exact ⟨_, by simp only [load, loadPOD, read_short (show rest.length < type.size from h)],
      .inl rfl⟩
  | stringBuffer len =>
    exact ⟨_, by simp only [load, loadStringBuffer, read_short (show rest.length < len from h)],
      .inr rfl⟩

/-- Loading, item by item, a file that starts with the bytes of a sequence of items. -/
theorem loadAll_bytesAll (items : List Saved) (rest : List UInt8) :
    (⟨Saved.bytesAll items ++ rest, true⟩ : FileInputStream).loadAll (items.map Saved.request) =
      (.ok items, ⟨rest, true⟩) := by
  induction items with
  | nil => rfl
  | cons item items ih =>
    have e : Saved.bytesAll (item :: items) ++ rest = item.bytes ++ (Saved.bytesAll items ++ rest) := by
      simp [Saved.bytesAll]
    rw [e, List.map_cons, loadAll, load_bytes]
    dsimp only
    rw [ih]

/-- A file cut short anywhere inside a sequence of items makes the loads of the sequence fail,
with the message of the load that ran past the end, and leaves the reader failed at the end of
the file. -/
theorem loadAll_truncated (items : List Saved) {n : Nat} (hn : n < (Saved.bytesAll items).length) :
    ∃ e, (⟨(Saved.bytesAll items).take n, true⟩ : FileInputStream).loadAll
        (items.map Saved.request) = (.error e, ⟨[], false⟩) ∧
      (e = "Error reading POD from file" ∨ e = "Error reading string buffer from file") := by
  induction items generalizing n with
  | nil => exact absurd hn (Nat.not_lt_zero _)
  | cons item items ih =>
    have e : Saved.bytesAll (item :: items) = item.bytes ++ Saved.bytesAll items := by
      simp [Saved.bytesAll]
    rw [e, List.length_append] at hn
    rw [e, List.map_cons, loadAll]
    by_cases hcut : n < item.bytes.length
    · -- the cut is inside this item: its load runs past the end
      rw [List.take_append_of_le_length hcut.le]
      obtain ⟨msg, hload, hmsg⟩ := @load_short (item.bytes.take n) item.request
        (by rw [Saved.len_request, List.length_take]; omega)
      rw [hload]
      exact ⟨msg, rfl, hmsg⟩
    · -- this item is whole: it loads, and the cut is further on
      rw [List.take_append_eq_append_take,
        List.take_of_length_le (show item.bytes.length ≤ n by omega), load_bytes]
      obtain ⟨msg, hrest, hmsg⟩ := @ih (n - item.bytes.length) (by omega)
      dsimp only
      rw [hrest]
      exact ⟨msg, rfl, hmsg⟩

/-- A `size_t` and a two-byte buffer: ten bytes. -/
def sizeTAndBuffer : List Saved := [.pod ⟨.sizeT, 5, by decide⟩, .stringBuffer [1, 2]]

theorem loadAll_truncated_in_buffer :
    9 < (Saved.bytesAll sizeTAndBuffer).length ∧
      ∃ e, (⟨(Saved.bytesAll sizeTAndBuffer).take 9, true⟩ : FileInputStream).loadAll
          (sizeTAndBuffer.map Saved.request) = (.error e, ⟨[], false⟩) ∧
        (e = "Error reading POD from file" ∨ e = "Error reading string buffer from file") :=
  ⟨by decide, loadAll_truncated _ (by decide)⟩

end FileInputStream

/-- Round trip: any sequence of values and buffers saved into a new file is read back, in
order, by the same sequence of loads, which ends at the end of the file with the reader still
good. -/
theorem loadAll_saveAll (items : List Saved) :
    ((⟨[], true⟩ : FileOutputStream).saveAll items).1 = .ok () ∧
      (⟨((⟨[], true⟩ : FileOutputStream).saveAll items).2.file, true⟩ : FileInputStream).loadAll
        (items.map Saved.request) = (.ok items, ⟨[], true⟩) := by
  rw [FileOutputStream.saveAll_of_good]
  exact ⟨rfl, by simpa using FileInputStream.loadAll_bytesAll items []⟩

end ValkeySearch
