import TapeLang.Proofs.Handles

/-!
The file at a path. A path that can be opened leads to a place that holds a file or nothing yet
(`Host.Files.At`), and it still does after the file there was written (`At.setNode`), since whatever is
on the way to the place is a directory and the place itself is none. So opening the path again finds the
same file (`At.openShared`), and what reading and writing do depends on its bytes and the offset alone
(`At.readByte`, `At.writeByte`).
-/
namespace TapeLang.Host.Files

variable {f g : Files} {path : String} {location other : Location} {content : Option (List UInt8)}
  {bytes : List UInt8}

/-! ## Nodes and paths -/

theorem node?_setNode (inside : location ≠ []) (f : Files) (node : Node) (other : Location) :
    (f.setNode location node).node? other = if other = location then some node else f.node? other := by
  by_cases root : other = []
  · simp [node?, root, inside.symm]
  simp only [node?, root, ↓reduceIte]
  unfold setNode
  split
  next held =>
    -- the node is there, and is replaced
    rw [List.find?_map, Option.map_map]
    have same : ((fun entry : Location × Node => entry.1 == other) ∘ fun entry : Location × Node =>
        (entry.1, if entry.1 = location then node else entry.2)) = (·.1 == other) := rfl
    dsimp only
    rw [same]
    cases found : f.nodes.find? (·.1 == other) with
    | none =>
      have absent : other ≠ location := by
        rintro rfl
        obtain ⟨entry, member, here⟩ := List.any_eq_true.mp held
        exact absurd here (by simpa using List.find?_eq_none.mp found entry member)
      simp [absent]
    | some entry =>
      have here : entry.1 = other := by simpa using List.find?_some found
      simp only [Option.map_some, Function.comp_apply, here]
      split <;> rfl
  next absent =>
    rw [List.find?_append]
    split
    next same =>
      subst same
      have none : f.nodes.find? (·.1 == other) = none := by
        rw [List.find?_eq_none]
        intro entry member here
        exact absent (List.any_eq_true.mpr ⟨entry, member, here⟩)
      simp [none]
    next different =>
      have elsewhere : location ≠ other := Ne.symm different
      simp [elsewhere]

/-- A way through directories is the same where these are directories, too. -/
theorem follow_mono (directories : ∀ place, f.node? place = some .directory →
      g.node? place = some .directory) {names : List String} {start : Location}
    (followed : f.follow path start names = .ok location) :
    g.follow path start names = .ok location := by
  induction names generalizing start with
  | nil => exact followed
  | cons name rest ih =>
    unfold follow at followed ⊢
    split_ifs at followed ⊢
    · exact ih followed
    · exact ih followed
    · cases rest with
      | nil => exact followed
      | cons second rest =>
        dsimp only at followed ⊢
        match found : f.node? (start ++ [name]) with
        | some .directory =>
          rw [found] at followed
          rw [directories _ found]
          exact ih followed
        | some (.file _) => simp [found] at followed
        | none => simp [found] at followed

theorem locate_mono (directories : ∀ place, f.node? place = some .directory →
      g.node? place = some .directory) {slash : Bool}
    (located : f.locate path = .ok (location, slash)) : g.locate path = .ok (location, slash) := by
  unfold locate at located ⊢
  split_ifs at located ⊢
  split at located
  · exact located
  · exact located
  next names slash' _ _ _ =>
    split at located
    next found followed =>
      rw [follow_mono directories followed]
      exact located
    next => simp at located

/-! ## The file at a path -/

/-- The path leads to a place with these bytes in a file, or with nothing. -/
structure At (f : Files) (path : String) (location : Location) (content : Option (List UInt8)) :
    Prop where
  located : f.locate path = .ok (location, false)
  node : f.node? location = content.map fun bytes => .file bytes.toArray

theorem At.inside (held : f.At path location content) : location ≠ [] := by
  rintro rfl
  have root := held.node
  cases content <;> simp [node?] at root

/-- What is in the handles does not matter. -/
theorem At.of_nodes (held : f.At path location content) (nodes : g.nodes = f.nodes) :
    g.At path location content := by
  have same (place : Location) : g.node? place = f.node? place := by simp only [node?, nodes]
  exact ⟨locate_mono (fun place found => (same place).trans found) held.located,
    (same location).trans held.node⟩

/-- The file can be written, and the path still leads there. -/
theorem At.setNode (held : f.At path location content) (bytes : List UInt8) :
    (f.setNode location (.file bytes.toArray)).At path location (some bytes) where
  located := by
    refine locate_mono (fun place found => ?_) held.located
    have apart : place ≠ location := by
      rintro rfl
      rw [held.node] at found
      cases content <;> simp at found
    rw [node?_setNode held.inside, if_neg apart, found]
  node := by
    rw [node?_setNode held.inside]
    exact if_pos rfl

theorem At.content? (held : f.At path location content) : f.content? path = content := by
  simp only [Files.content?, readAll, held.located, held.node]
  cases content <;> rfl

theorem At.contentOf {handle : Handle} (held : f.At path location (some bytes))
    (there : handle.location = location) : f.contentOf handle = bytes.toArray := by
  simp only [Files.contentOf, there, held.node, Option.map_some]

/-! ## Opening, reading and writing -/

/-- A path that can be opened leads to a file, or to where one can be created. -/
theorem at_of_openShared {opened : Files × Nat} (opens : f.openShared path = .ok opened) :
    ∃ location, f.At path location (f.content? path) := by
  unfold openShared at opens
  split at opens
  · simp at opens
  · simp at opens
  next location located =>
    split at opens
    · simp at opens
    next content node =>
      have held : f.At path location (some content.toList) := ⟨located, by simpa using node⟩
      exact ⟨location, held.content?.symm ▸ held⟩
    next node =>
      have held : f.At path location none := ⟨located, by simpa using node⟩
      exact ⟨location, held.content?.symm ▸ held⟩

/-- Opening creates the file where there is none, and starts at its first byte. -/
theorem At.openShared (held : f.At path location content) :
    ∃ g id, f.openShared path = .ok (g, id) ∧ g.At path location (some (content.getD [])) ∧
      g.handles[id]? = some { location } := by
  have pushed {bytes : List UInt8} (tree : Files) (held : tree.At path location (some bytes)) :
      Files.At { tree with handles := tree.handles.push { location } } path location (some bytes) ∧
        (tree.handles.push { location })[tree.handles.size]? = some { location } :=
    ⟨held.of_nodes rfl, Array.getElem?_push_size⟩
  unfold Files.openShared
  rw [held.located]
  dsimp only
  rw [held.node]
  cases content with
  | none => exact ⟨_, _, rfl, pushed _ (held.setNode [])⟩
  | some bytes => exact ⟨_, _, rfl, pushed f held⟩

/-- Bytes with one of them replaced, or with another one at their end. -/
def put (bytes : List UInt8) (offset : Nat) (byte : UInt8) : List UInt8 :=
  bytes.take offset ++ byte :: bytes.drop (offset + 1)

theorem length_put {offset : Nat} (within : offset ≤ bytes.length) (byte : UInt8) :
    (put bytes offset byte).length = max bytes.length (offset + 1) := by
  simp only [put, List.length_append, List.length_take, List.length_cons, List.length_drop]
  omega

/-- The other bytes stay. -/
theorem getElem?_put {offset index : Nat} (within : offset ≤ bytes.length) (apart : index ≠ offset)
    (byte : UInt8) : (put bytes offset byte)[index]? = bytes[index]? := by
  unfold put
  rcases Nat.lt_or_gt_of_ne apart with before | after
  · rw [List.getElem?_append_left (by rw [List.length_take]; omega), List.getElem?_take_of_lt before]
  · obtain ⟨k, rfl⟩ := Nat.exists_eq_add_of_lt after
    have first : (bytes.take offset).length = offset := by rw [List.length_take]; omega
    have rest : offset + k + 1 - offset = k + 1 := by omega
    have place : offset + 1 + k = offset + k + 1 := by omega
    rw [List.getElem?_append_right (by omega), first, rest, List.getElem?_cons_succ,
      List.getElem?_drop, place]

theorem overwrite_toArray {offset : Nat} (within : offset ≤ bytes.length) (byte : UInt8) :
    overwrite bytes.toArray offset byte = (put bytes offset byte).toArray := by
  unfold overwrite put
  split
  next inside =>
    rw [List.size_toArray] at inside
    simp [List.set_eq_take_append_cons_drop, inside]
  next beyond =>
    rw [List.size_toArray] at beyond
    have last : offset = bytes.length := by omega
    simp [last]

/-- A write replaces the byte at the offset of a handle, or extends the file by one byte at its end. -/
theorem At.writeByte {id : Nat} {handle : Handle} (held : f.At path location (some bytes))
    (opened : f.handles[id]? = some handle) (there : handle.location = location)
    (within : handle.offset ≤ bytes.length) (byte : UInt8) :
    (f.writeByte id byte).At path location (some (put bytes handle.offset byte)) ∧
      (f.writeByte id byte).handles[id]? = some { handle with offset := handle.offset + 1 } := by
  have inside : id < f.handles.size := (Array.getElem?_eq_some_iff.mp opened).1
  simp only [Files.writeByte, opened, held.contentOf there, overwrite_toArray within, there]
  refine ⟨(held.setNode _).of_nodes rfl, ?_⟩
  simp [handles_setNode, inside]

/-- A read gives the byte at the offset of a handle, or nothing at the end, where it moves nothing. -/
theorem At.readByte {id : Nat} {handle : Handle} (held : f.At path location (some bytes))
    (opened : f.handles[id]? = some handle) (there : handle.location = location) :
    (f.readByte id).1 = bytes[handle.offset]? ∧ (f.readByte id).2.At path location (some bytes) ∧
      (f.readByte id).2.handles[id]? = some { handle with
        offset := if handle.offset < bytes.length then handle.offset + 1 else handle.offset } := by
  have inside : id < f.handles.size := (Array.getElem?_eq_some_iff.mp opened).1
  simp only [Files.readByte, opened, held.contentOf there, List.getElem?_toArray]
  split
  next beyond =>
    have last : ¬ handle.offset < bytes.length := by simpa using beyond
    exact ⟨beyond.symm, held, by rw [if_neg last]; exact opened⟩
  next byte found =>
    have before : handle.offset < bytes.length := (List.getElem?_eq_some_iff.mp found).1
    refine ⟨found.symm, held.of_nodes rfl, ?_⟩
    simp [before, inside]

end TapeLang.Host.Files
