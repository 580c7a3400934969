import TapeLang.Debug.Session
import TapeLang.Proofs.Json.Values

/-!
Lines of the protocol. A message is one line: its only line break is its last byte
(`ServerMessage.encode_eq`), so a sequence of messages is split at line breaks into the messages
(`lines_encode`). Read back, a line gives the message that was sent, with or without its line break
(`ServerMessage.decode_encode`, `Command.decode_encode`).
-/
namespace TapeLang

namespace Text.Utf8

open Json (IsPrintable)

variable {t : Text} {n : Nat}

/-- In ASCII every code point is a byte. -/
theorem encode_ascii (ascii : ∀ n ∈ t, n < 0x80) : encode t = t.map UInt8.ofNat := by
  induction t with
  | nil => rfl
  | cons n rest ih =>
    have later : encode rest = rest.map UInt8.ofNat :=
      ih fun m member => ascii m (List.mem_cons_of_mem n member)
    rw [encode] at later ⊢
    rw [List.flatMap_cons, later, encodePoint, if_pos (ascii n List.mem_cons_self)]
    rfl

theorem encode_printable (printable : ∀ n ∈ t, IsPrintable n) : encode t = t.map UInt8.ofNat :=
  encode_ascii fun n member => Nat.lt_of_le_of_lt (printable n member).2 (by decide)

/-- Bytes of ASCII are decoded one by one. -/
theorem decodeFrom_ascii {bytes : List UInt8} (ascii : ∀ b ∈ bytes, b.toNat < 0x80)
    (done : List Nat) (position : Nat) :
    decodeFrom done .between position bytes = .ok (done.reverse ++ bytes.map UInt8.toNat) := by
  induction bytes generalizing done position with
  | nil => simp [decodeFrom]
  | cons b rest ih =>
    have small := ascii b List.mem_cons_self
    rw [decodeFrom, if_pos small, ih fun b' member => ascii b' (List.mem_cons_of_mem b member)]
    simp

/-- What is printable is read back, also with a line break after it. -/
theorem decode_printable (printable : ∀ n ∈ t, IsPrintable n) :
    decode (encode t) = .ok t ∧ decode (encode t ++ [0xA]) = .ok (t ++ [0xA]) := by
  have value : ∀ n ∈ t, (UInt8.ofNat n).toNat = n := by
    intro n member
    have := (printable n member).2
    exact UInt8.toNat_ofNat_of_lt' (Nat.lt_of_le_of_lt this (by decide))
  have back : (t.map UInt8.ofNat).map UInt8.toNat = t := by
    rw [List.map_map]
    exact (List.map_congr_left value).trans (List.map_id t)
  have ascii : ∀ b ∈ t.map UInt8.ofNat, b.toNat < 0x80 := by
    intro b member
    obtain ⟨n, inside, rfl⟩ := List.mem_map.mp member
    have := (printable n inside).2
    rw [value n inside]
    omega
  rw [encode_printable printable, decode, decode]
  constructor
  · rw [decodeFrom_ascii ascii, back]
    rfl
  · rw [decodeFrom_ascii, List.map_append, back]
    · rfl
    · intro b member
      rcases List.mem_append.mp member with inside | last
      · exact ascii b inside
      · obtain rfl := List.mem_singleton.mp last
        decide

end Text.Utf8

namespace Debug

open Json (Readable)

variable {fields : Json.Fields} {name : String} {value : Json}

/-! ## Lines -/

/-- An object on a line, without the line break. -/
def lineOf (fields : Json.Fields) : List UInt8 := Text.Utf8.encode (Json.object fields).compact

/-- The line of an object has one line break, at its end. -/
theorem newline_not_mem_lineOf (readable : (Json.object fields).Readable) : 0xA ∉ lineOf fields := by
  have printable := Json.printable_compact _ readable
  rw [lineOf, Text.Utf8.encode_printable printable]
  intro member
  obtain ⟨n, inside, same⟩ := List.mem_map.mp member
  obtain ⟨low, high⟩ := printable n inside
  have value : (UInt8.ofNat n).toNat = n :=
    UInt8.toNat_ofNat_of_lt' (Nat.lt_of_le_of_lt high (by decide))
  rw [same] at value
  have : n = 0xA := value.symm
  omega

/-- An object is read back from its line, with or without the line break. -/
theorem decodeLine_lineOf (readable : (Json.object fields).Readable) :
    decodeLine (lineOf fields) = .ok fields ∧ decodeLine (encodeFields fields) = .ok fields := by
  obtain ⟨bare, broken⟩ := Text.Utf8.decode_printable (Json.printable_compact _ readable)
  have read : Json.read (Json.object fields).compact = .ok (.object fields) := by
    have nothing : ∀ n ∈ ([] : Text), Json.isSpace n = true := by simp
    simpa using Json.read_compact readable nothing
  have read' : Json.read ((Json.object fields).compact ++ [0xA]) = .ok (.object fields) :=
    Json.read_compact readable (by simp [Json.isSpace])
  constructor
  · simp only [decodeLine, lineOf, bare, decodeText, read]
  · simp only [decodeLine, encodeFields, broken, decodeText, read']

/-- The line of an object is no blank line. -/
theorem not_blank_lineOf (fields : Json.Fields) (after : List UInt8) :
    Session.isBlankLine (lineOf fields ++ after) = false := rfl

/-! ## Fields -/

theorem textField_of_text {t : Text} (found : fields.get? (.ofString name) = some (.text t)) :
    textField name fields = t := by
  rw [textField, found]
  cases t <;> rfl

theorem intField_of_int {n : Int} (found : fields.get? (.ofString name) = some (.int n)) :
    intField name fields = .ok (some n) := by
  rw [intField, found]
  rfl

theorem objectField_of_object {inner : Json.Fields}
    (found : fields.get? (.ofString name) = some (.object inner)) :
    objectField name fields = inner := by
  rw [objectField, found]

theorem mapM_ints {f : Json → Except NumberFault Int} {numbers : List Int}
    (each : ∀ n ∈ numbers, f (.int n) = .ok n) : (numbers.map Json.int).mapM f = .ok numbers := by
  induction numbers with
  | nil => rfl
  | cons n rest ih =>
    have later := ih fun m member => each m (List.mem_cons_of_mem n member)
    rw [List.map_cons, List.mapM_cons, each n List.mem_cons_self, later]
    rfl

/-- Bytes are read back as they are. -/
theorem bytesField_of_bytes {bytes : List Int} (small : ∀ n ∈ bytes, 0 ≤ n ∧ n < 256)
    (found : fields.get? (.ofString name) = some (.array (bytes.map .int))) :
    bytesField name fields = .ok bytes := by
  rw [bytesField, found]
  apply mapM_ints
  intro n member
  obtain ⟨low, high⟩ := small n member
  have same : n % 256 = n := Int.emod_eq_of_lt low high
  exact congrArg Except.ok same

/-! ## Server messages -/

/-- What a program may send: everything in it is read back as it was. -/
def ServerMessage.Sound : ServerMessage → Prop
  | .metadata fileName filePath content =>
    fileName.IsScalar ∧ filePath.IsScalar ∧ content.IsScalar
  | .state s =>
    (Json.object s.statement).Readable ∧ (Json.object s.position).Readable ∧ Json.IsShort s.cursor ∧
      ∀ n ∈ s.tape, 0 ≤ n ∧ n < 256
  | .exit code => Json.IsShort code
  | .stream name value => (name = stdOut ∨ name = stdErr) ∧ value.IsScalar

/-- Bytes of output are read back. -/
theorem ServerMessage.sound_ofBytes (bytes : List UInt8) {stream : Text}
    (known : stream = stdOut ∨ stream = stdErr) : (ofBytes bytes stream).Sound := by
  refine ⟨known, ?_⟩
  intro n member
  obtain ⟨b, -, rfl⟩ := List.mem_map.mp member
  have small := b.toNat_lt
  exact .inl (by omega)

variable {m : ServerMessage}

theorem readable_bytes {bytes : List Int} (small : ∀ n ∈ bytes, 0 ≤ n ∧ n < 256) :
    Json.ReadableItems (bytes.map .int) := by
  induction bytes with
  | nil => trivial
  | cons n rest ih =>
    obtain ⟨low, high⟩ := small n List.mem_cons_self
    have short : Json.IsShort n := Json.isShort_of_natAbs_lt 3 (by decide) (by omega)
    exact ⟨short, ih fun m member => small m (List.mem_cons_of_mem n member)⟩

/-- The names of the fields of a message. -/
def ServerMessage.fieldNames : ServerMessage → List String
  | .metadata .. => ["file_name", "file_path", "content", "type"]
  | .state _ => ["statement", "position", "cursor", "tape", "type"]
  | .exit _ => ["code", "type"]
  | .stream .. => ["value", "type"]

/-- No field of a message is named twice. -/
theorem ServerMessage.nodup_names (m : ServerMessage) : (m.fields.map (·.1)).Nodup := by
  have named : m.fields.map (·.1) = m.fieldNames.map Text.ofString := by cases m <;> rfl
  rw [named]
  cases m <;> simp only [fieldNames] <;> decide

/-- The fields of a message that is sent are read back. -/
theorem ServerMessage.Sound.readable (sound : m.Sound) : (Json.object m.fields).Readable := by
  have named (s : String) := Text.ofString_isScalar s
  have nodup := m.nodup_names
  cases m with
  | metadata fileName filePath content =>
    obtain ⟨fileName, filePath, content⟩ := sound
    exact ⟨nodup, named _, fileName, named _, filePath, named _, content, named _, named _, trivial⟩
  | state s =>
    obtain ⟨statement, position, cursor, tape⟩ := sound
    exact ⟨nodup, named _, statement, named _, position, named _, cursor, named _,
      readable_bytes tape, named _, named _, trivial⟩
  | exit code => exact ⟨nodup, named _, sound, named _, named _, trivial⟩
  | stream name value =>
    obtain ⟨kind, value⟩ := sound
    have name : name.IsScalar := by
      rcases kind with rfl | rfl <;> exact named _
    exact ⟨nodup, named _, value, named _, name, trivial⟩

/-- They make the message. -/
theorem ServerMessage.Sound.ofFields (sound : m.Sound) : ServerMessage.ofFields m.fields = .ok m := by
  have type : textField "type" m.fields = m.type := by
    apply textField_of_text
    cases m <;> rfl
  cases m with
  | metadata fileName filePath content =>
    have fileName' : textField "file_name" (metadata fileName filePath content).fields = fileName :=
      textField_of_text rfl
    have filePath' : textField "file_path" (metadata fileName filePath content).fields = filePath :=
      textField_of_text rfl
    have content' : textField "content" (metadata fileName filePath content).fields = content :=
      textField_of_text rfl
    simp only [ServerMessage.ofFields, type, ServerMessage.type, fileName', filePath', content',
      ↓reduceIte]
  | state s =>
    obtain ⟨-, -, -, small⟩ := sound
    have statement : objectField "statement" (state s).fields = s.statement := objectField_of_object rfl
    have position : objectField "position" (state s).fields = s.position := objectField_of_object rfl
    have cursor : intField "cursor" (state s).fields = .ok (some s.cursor) := intField_of_int rfl
    have tape : bytesField "tape" (state s).fields = .ok s.tape := bytesField_of_bytes small rfl
    have other : Text.ofString "debug-state" ≠ Text.ofString "metadata" := by decide
    simp only [ServerMessage.ofFields, type, ServerMessage.type, other, statement, position, cursor,
      tape, ↓reduceIte]
    rfl
  | exit code =>
    have code' : intField "code" (exit code).fields = .ok (some code) := intField_of_int rfl
    have other : Text.ofString "exit" ≠ Text.ofString "metadata" ∧
        Text.ofString "exit" ≠ Text.ofString "debug-state" := by
      decide
    simp only [ServerMessage.ofFields, type, ServerMessage.type, other, code', ↓reduceIte]
    rfl
  | stream name value =>
    have value' : textField "value" (stream name value).fields = value := textField_of_text rfl
    have other : name ≠ Text.ofString "metadata" ∧ name ≠ Text.ofString "debug-state" ∧
        name ≠ Text.ofString "exit" := by
      rcases sound.1 with rfl | rfl <;> decide
    simp only [ServerMessage.ofFields, type, ServerMessage.type, other, value', sound.1, ↓reduceIte]

/-- A message is read back from its line, with or without the line break. -/
theorem ServerMessage.decode_encode (sound : m.Sound) :
    ServerMessage.decode (lineOf m.fields) = .ok m ∧ ServerMessage.decode m.encode = .ok m := by
  obtain ⟨bare, broken⟩ := decodeLine_lineOf sound.readable
  constructor
  · rw [ServerMessage.decode, bare]
    exact sound.ofFields
  · rw [ServerMessage.decode, ServerMessage.encode, broken]
    exact sound.ofFields

/-! ## Commands -/

variable {c : Command}

/-- A command whose operation and numbers are read back. -/
def Command.Sound (c : Command) : Prop :=
  c.operation.IsScalar ∧ (∀ n, c.cell = some n → Json.IsShort n) ∧
    ∀ n, c.value = some n → Json.IsShort n

theorem Command.nodup_names (c : Command) : (c.fields.map (·.1)).Nodup := by
  obtain ⟨operation, cell, value⟩ := c
  have names : (Command.fields ⟨operation, cell, value⟩).map (·.1) =
      [Text.ofString "operation"] ++ (cell.toList.map fun _ => Text.ofString "cell") ++
        (value.toList.map fun _ => Text.ofString "value") := by
    cases cell <;> cases value <;> rfl
  rw [names]
  cases cell <;> cases value <;> simp only [Option.toList, List.map] <;> decide

theorem Command.Sound.readable (sound : c.Sound) : (Json.object c.fields).Readable := by
  have nodup := c.nodup_names
  obtain ⟨operation, cell, value⟩ := c
  obtain ⟨scalar, cell', value'⟩ := sound
  have named (s : String) := Text.ofString_isScalar s
  cases cell with
  | none =>
    cases value with
    | none => exact ⟨nodup, named _, scalar, trivial⟩
    | some value => exact ⟨nodup, named _, scalar, named _, value' value rfl, trivial⟩
  | some cell =>
    cases value with
    | none => exact ⟨nodup, named _, scalar, named _, cell' cell rfl, trivial⟩
    | some value =>
      exact ⟨nodup, named _, scalar, named _, cell' cell rfl, named _, value' value rfl, trivial⟩

theorem Command.ofFields_fields (c : Command) : Command.ofFields c.fields = .ok c := by
  obtain ⟨operation, cell, value⟩ := c
  have operation' (cell value : Option Int) :
      textField "operation" (Command.fields ⟨operation, cell, value⟩) = operation :=
    textField_of_text rfl
  cases cell <;> cases value <;> simp only [Command.ofFields, operation'] <;> rfl

/-- A command is read back from its line. -/
theorem Command.decode_encode (sound : c.Sound) : Command.decode c.encode = .ok c := by
  rw [Command.decode, Command.encode, (decodeLine_lineOf sound.readable).2]
  simp only [Command.ofFields_fields]
  rfl

end Debug

namespace Host

variable {line rest : List UInt8}

/-! ## Splitting at line breaks -/

theorem linesFrom_line (line : List UInt8) (unbroken : 0xA ∉ line) (begun rest : List UInt8) :
    linesFrom begun (line ++ 0xA :: rest) = (begun.reverse ++ line ++ [0xA]) :: lines rest := by
  induction line generalizing begun with
  | nil => simp [linesFrom, lines]
  | cons byte later ih =>
    have other : byte ≠ 0xA := fun same => unbroken (by simp [same])
    have unbroken' : 0xA ∉ later := fun member => unbroken (List.mem_cons_of_mem _ member)
    rw [List.cons_append, linesFrom, if_neg other, ih unbroken']
    simp

/-- The first line is split off at its line break. -/
theorem lines_cons (unbroken : 0xA ∉ line) :
    lines (line ++ 0xA :: rest) = (line ++ [0xA]) :: lines rest := by
  rw [lines, linesFrom_line line unbroken]
  rfl

end Host

namespace Debug

/-- The lines of a sequence of messages are the messages. -/
theorem lines_encode {messages : List ServerMessage} (sound : ∀ m ∈ messages, m.Sound) :
    Host.lines (messages.flatMap ServerMessage.encode) = messages.map ServerMessage.encode := by
  induction messages with
  | nil => rfl
  | cons m rest ih =>
    have unbroken := newline_not_mem_lineOf (sound m List.mem_cons_self).readable
    have later := ih fun m' member => sound m' (List.mem_cons_of_mem m member)
    have first : m.encode = lineOf m.fields ++ [0xA] := rfl
    rw [List.flatMap_cons, List.map_cons, ← later, first, List.append_assoc, List.singleton_append,
      Host.lines_cons unbroken]

end Debug
end TapeLang
