import TapeLang.Proofs.Wire

/-!
Messages and commands survive the wire. Each is one line of ASCII, its only line break at the end, and
the line is read back as what was sent; the output of a program is restored byte for byte
(`survives_wire`).
-/
namespace TapeLang.Debug

/-- One line of ASCII: its only line break is its last byte. -/
structure IsLine (bytes : List UInt8) : Prop where
  ascii : ∀ b ∈ bytes, b.toNat < 0x80
  last : bytes.getLast? = some 0xA
  only : bytes.count 0xA = 1

variable {fields : Json.Fields}

/-- A written object is ASCII. -/
theorem ascii_lineOf (readable : (Json.object fields).Readable) : ∀ b ∈ lineOf fields, b.toNat < 0x80 := by
  have printable := Json.printable_compact _ readable
  rw [lineOf, Text.Utf8.encode_printable printable]
  intro b member
  obtain ⟨n, inside, rfl⟩ := List.mem_map.mp member
  have high := (printable n inside).2
  rw [UInt8.toNat_ofNat_of_lt' (Nat.lt_of_le_of_lt high (by decide))]
  omega

theorem isLine_encodeFields (readable : (Json.object fields).Readable) : IsLine (encodeFields fields) where
  ascii b member := by
    rcases List.mem_append.mp member with inside | last
    · exact ascii_lineOf readable b inside
    · rw [List.mem_singleton.mp last]
      decide
  last := List.getLast?_concat
  only := by
    have unbroken : (lineOf fields).count 0xA = 0 :=
      List.count_eq_zero.mpr (newline_not_mem_lineOf readable)
    rw [encodeFields, ← lineOf, List.count_append, unbroken, List.count_singleton_self]

/-- What a program may send and what a client may ask for is one line of ASCII, and is read back from it
as it was. A stream of output carries its bytes in the text of its message, which gives them all back. -/
theorem survives_wire :
    (∀ m : ServerMessage, m.Sound → IsLine m.encode ∧ ServerMessage.decode m.encode = .ok m) ∧
    (∀ c : Command, c.Sound → IsLine c.encode ∧ Command.decode c.encode = .ok c) ∧
    ∀ (bytes : List UInt8) (stream : Text), stream = stdOut ∨ stream = stdErr →
      ∃ value, IsLine (ServerMessage.ofBytes bytes stream).encode ∧
        ServerMessage.decode (ServerMessage.ofBytes bytes stream).encode = .ok (.stream stream value) ∧
        Text.Encoding.latin1.encode value = .ok bytes := by
  have message (m : ServerMessage) (sound : m.Sound) :
      IsLine m.encode ∧ ServerMessage.decode m.encode = .ok m :=
    ⟨isLine_encodeFields sound.readable, (ServerMessage.decode_encode sound).2⟩
  refine ⟨message, fun c sound => ?_, fun bytes stream known => ?_⟩
  · exact ⟨isLine_encodeFields sound.readable, Command.decode_encode sound⟩
  · obtain ⟨line, decoded⟩ := message _ (ServerMessage.sound_ofBytes bytes known)
    exact ⟨.ofLatin1 bytes, line, decoded, Text.encode_latin1_ofLatin1 bytes⟩

/-- A state with an empty statement, a cursor left of the tape and every kind of byte; a command whose
operation holds a quote, a line break and a letter past the basic plane, and whose cell is zero. -/
theorem survives_wire_borders :
    let state : ServerMessage := .state
      { statement := [], position := [(.ofString "line", .int 0), (.ofString "é", .null)], cursor := -5
        tape := [0, 255] }
    let command : Command := ⟨[0x22, 0xA, 0x1F600], some 0, none⟩
    (IsLine state.encode ∧ ServerMessage.decode state.encode = .ok state) ∧
      (IsLine command.encode ∧ Command.decode command.encode = .ok command) ∧
      ∃ value, IsLine (ServerMessage.ofBytes [0x0A, 0x22, 0xFF] stdErr).encode ∧
        ServerMessage.decode (ServerMessage.ofBytes [0x0A, 0x22, 0xFF] stdErr).encode =
          .ok (.stream stdErr value) ∧
        Text.Encoding.latin1.encode value = .ok [0x0A, 0x22, 0xFF] := by
  have short (n : Int) (small : n.natAbs < 10) : Json.IsShort n :=
    Json.isShort_of_natAbs_lt 1 (by decide) small
  have names : [Text.ofString "line", Text.ofString "é"].Nodup := by decide
  obtain ⟨messages, commands, streams⟩ := survives_wire
  refine ⟨messages _ ?_, commands _ ?_, streams _ _ (.inr rfl)⟩
  · refine ⟨⟨List.nodup_nil, trivial⟩, ⟨names, ?_⟩, short _ (by decide), by simp⟩
    exact ⟨Text.ofString_isScalar _, short 0 (by decide), Text.ofString_isScalar _, trivial, trivial⟩
  · refine ⟨?_, fun n cell => ?_, fun n value => ?_⟩
    · intro n member
      simp only [List.mem_cons, List.not_mem_nil, or_false] at member
      rcases member with rfl | rfl | rfl <;> decide
    · obtain rfl := Option.some.inj cell
      exact short 0 (by decide)
    · simp at value

end TapeLang.Debug
