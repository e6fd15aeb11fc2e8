import Dynascript.Script.Writer
import Mathlib.Data.List.Chain

/-!
# The marks of script text

Every byte of a buffer's text was produced by one write, and the marks are there to find the
location of that write again : it is the location of the last mark at or before the byte
(`Buffer.origin?`). A write leaves no mark if the location is the one of the write before it, and
writes of empty text can leave several marks at one offset.

`Attributed ws b` says that the buffer holds the text of the writes `ws` and that its marks give
each byte its origin. One more write keeps that (`Attributed.write`), so it holds after any writes
into a new buffer, and in particular of what a writer has written of expressions and statements,
those it had to give up half-way included (`marks_attribute_bytes`).
-/

namespace Dynascript.Script

/-- The bytes of a write, each with where it comes from. -/
def Write.bytes (w : Write) : List (UInt8 × Location) :=
  w.text.toUTF8.data.toList.map (·, w.loc)

/-- The bytes of writes one after the other, each with where it comes from. -/
def origins (ws : List Write) : List (UInt8 × Location) := ws.flatMap Write.bytes

/-- The location of the last mark at or before byte `p`. -/
def Buffer.origin? (b : Buffer) (p : Nat) : Option Location :=
  (b.marks.toList.filter (·.offset ≤ p)).getLast?.map Mark.loc

/-- The buffer holds the text of the writes `ws`, and its marks give each byte its origin. -/
structure Attributed (ws : List Write) (b : Buffer) : Prop where
  text : b.text = String.join (ws.map Write.text)
  bytes : b.text.toUTF8.data.toList = (origins ws).map Prod.fst
  /-- The first write, and no other, leaves a first mark, at the start of the text. -/
  start : b.marks.toList.head?.map Mark.offset = ws.head?.map fun _ => 0
  sorted : b.marks.toList.Pairwise (·.offset ≤ ·.offset)
  bounded : ∀ m ∈ b.marks.toList, m.offset ≤ b.text.utf8ByteSize
  /-- Each mark changes the location. -/
  changes : b.marks.toList.IsChain (·.loc ≠ ·.loc)
  /-- The last mark has the location of the last write. -/
  last : b.marks.toList.getLast?.map Mark.loc = ws.getLast?.map Write.loc
  origin : ∀ p byte loc, (origins ws)[p]? = some (byte, loc) → b.origin? p = some loc

variable {ws : List Write} {b : Buffer}

theorem attributed_empty : Attributed [] .empty where
  text := rfl
  bytes := rfl
  start := rfl
  sorted := .nil
  bounded := by simp [Buffer.empty]
  changes := .nil
  last := rfl
  origin := by simp [origins]

/-- What a write does to the marks : nothing, if the last one has its location already, else there
is a new one at the end of the text so far. -/
theorem Buffer.marks_write (b : Buffer) (w : Write) :
    (b.write w).marks.toList = b.marks.toList ∧
        b.marks.toList.getLast?.map Mark.loc = some w.loc ∨
      (b.write w).marks.toList = b.marks.toList ++ [⟨b.text.utf8ByteSize, w.loc⟩] ∧
        b.marks.toList.getLast?.map Mark.loc ≠ some w.loc := by
  rw [Array.getLast?_toList]
  by_cases h : b.marks.back?.map Mark.loc = some w.loc
  · exact .inl ⟨by simp [write, h], h⟩
  · exact .inr ⟨by simp [write, h], h⟩

@[simp] theorem Buffer.text_write (b : Buffer) (w : Write) : (b.write w).text = b.text ++ w.text :=
  rfl

/-- Whether a mark is left or not, the last one then has the location of the write. -/
theorem Buffer.last_write (b : Buffer) (w : Write) :
    (b.write w).marks.toList.getLast?.map Mark.loc = some w.loc := by
  rcases b.marks_write w with ⟨hmarks, hloc⟩ | ⟨hmarks, -⟩
  · rw [hmarks, hloc]
  · simp [hmarks]

theorem Write.map_fst_bytes (w : Write) : w.bytes.map Prod.fst = w.text.toUTF8.data.toList := by
  simp [bytes, Function.comp_def]

theorem origins_write (ws : List Write) (w : Write) :
    origins (ws ++ [w]) = origins ws ++ w.bytes := by
  simp [origins]

theorem Attributed.length_origins (h : Attributed ws b) :
    (origins ws).length = b.text.utf8ByteSize := by
  have hlength := congrArg List.length h.bytes
  rw [List.length_map] at hlength
  exact hlength.symm

theorem Attributed.bounded_write (h : Attributed ws b) (w : Write) :
    ∀ m ∈ (b.write w).marks.toList, m.offset ≤ (b.write w).text.utf8ByteSize := by
  have hold : ∀ m ∈ b.marks.toList, m.offset ≤ (b.write w).text.utf8ByteSize := by
    intro m hm
    rw [Buffer.text_write, String.utf8ByteSize_append]
    exact Nat.le_add_right_of_le (h.bounded m hm)
  rcases b.marks_write w with ⟨hmarks, -⟩ | ⟨hmarks, -⟩
  · rwa [hmarks]
  · rw [hmarks]
    refine List.forall_mem_append.2 ⟨hold, List.forall_mem_singleton.2 ?_⟩
    simp [String.utf8ByteSize_append]

/-- Bytes that were there keep their origin : a new mark stands behind all of them. -/
theorem Buffer.origin?_write_of_lt (b : Buffer) (w : Write) {p : Nat}
    (hp : p < b.text.utf8ByteSize) : (b.write w).origin? p = b.origin? p := by
  unfold origin?
  rcases b.marks_write w with ⟨hmarks, -⟩ | ⟨hmarks, -⟩
  · rw [hmarks]
  · rw [hmarks, List.filter_append, List.filter_singleton]
    simp [Nat.not_le.2 hp]

/-- The new bytes come from the write : all marks stand at or before them. -/
theorem Attributed.origin?_write_of_ge (h : Attributed ws b) (w : Write) {p : Nat}
    (hp : b.text.utf8ByteSize ≤ p) : (b.write w).origin? p = some w.loc := by
  have hall : ∀ m ∈ (b.write w).marks.toList, m.offset ≤ p := by
    intro m hm
    rcases b.marks_write w with ⟨hmarks, -⟩ | ⟨hmarks, -⟩
    · exact (h.bounded m (hmarks ▸ hm)).trans hp
    · rcases List.mem_append.1 (hmarks ▸ hm) with hm | hm
      · exact (h.bounded m hm).trans hp
      · rw [List.mem_singleton.1 hm]
        exact hp
  have hfilter : (b.write w).marks.toList.filter (·.offset ≤ p) = (b.write w).marks.toList := by
    rw [List.filter_eq_self]
    simpa using hall
  rw [Buffer.origin?, hfilter, b.last_write w]

/-- One more write. -/
theorem Attributed.write (h : Attributed ws b) (w : Write) :
    Attributed (ws ++ [w]) (b.write w) where
  text := by simp [h.text]
  bytes := by
    rw [origins_write, List.map_append, ← h.bytes, w.map_fst_bytes]
    simp [String.toByteArray_append, ByteArray.data_append]
  start := by
    rcases b.marks_write w with ⟨hmarks, hloc⟩ | ⟨hmarks, -⟩
    · -- There was a write before this one, or there would be no mark.
      have hne : ws ≠ [] := by
        rintro rfl
        cases h.last.symm.trans hloc
      rw [hmarks, h.start, List.head?_append_of_ne_nil _ hne]
    · cases ws with
      | nil =>
        have hnone : b.marks.toList = [] := by simpa using h.start
        have hempty : b.text = "" := h.text
        simp [hmarks, hnone, hempty]
      | cons w' ws =>
        have hfirst := h.start
        rw [hmarks, List.head?_append]
        cases hhead : b.marks.toList.head? with
        | none => simp [hhead] at hfirst
        | some m => simpa [hhead] using hfirst
  sorted := by
    rcases b.marks_write w with ⟨hmarks, -⟩ | ⟨hmarks, -⟩
    · rw [hmarks]
      exact h.sorted
    · rw [hmarks]
      refine List.pairwise_append.2 ⟨h.sorted, List.pairwise_singleton _ _, fun m hm m' hm' => ?_⟩
      rw [List.mem_singleton.1 hm']
      exact h.bounded m hm
  bounded := h.bounded_write w
  changes := by
    rcases b.marks_write w with ⟨hmarks, -⟩ | ⟨hmarks, hloc⟩
    · rw [hmarks]
      exact h.changes
    · rw [hmarks]
      refine List.isChain_append.2 ⟨h.changes, .singleton _, fun m hm m' hm' => ?_⟩
      obtain rfl : _ = m' := by simpa using hm'
      rintro heq
      exact hloc (by rw [Option.mem_def.1 hm, Option.map_some, heq])
  last := by rw [b.last_write w, List.getLast?_concat, Option.map_some]
  origin := by
    intro p byte loc hp
    rw [origins_write] at hp
    by_cases hlt : p < b.text.utf8ByteSize
    · rw [List.getElem?_append_left (by rwa [h.length_origins])] at hp
      rw [b.origin?_write_of_lt w hlt]
      exact h.origin p byte loc hp
    · rw [List.getElem?_append_right (by rw [h.length_origins]; omega)] at hp
      obtain ⟨_, -, hbyte⟩ := List.mem_map.1 (List.mem_of_getElem? hp)
      rw [h.origin?_write_of_ge w (by omega), ← (Prod.mk.inj hbyte).2]

/-- Any number of writes. -/
theorem Attributed.writeAll (h : Attributed ws b) (more : List Write) :
    Attributed (ws ++ more) (b.writeAll more) := by
  induction more generalizing ws b with
  | nil => simpa [Buffer.writeAll] using h
  | cons w more ih => simpa [Buffer.writeAll] using ih (h.write w)

/-- The writer after one more expression or statement. -/
def Writer.emit (r : Registry) (w : Writer) (item : TypedExpr ⊕ TypedStmt) : Writer :=
  (item.elim (w.expr r) (w.stmt r)).2

/-- What is written for an expression or for a statement outside of all blocks. -/
def writesOf (r : Registry) (item : TypedExpr ⊕ TypedStmt) : List Write :=
  (item.elim (text r) (stmtText r 0)).written

theorem Writer.depth_emit (r : Registry) (w : Writer) (item : TypedExpr ⊕ TypedStmt) :
    (w.emit r item).depth = w.depth := by
  cases item <;> rfl

theorem Writer.buffer_emit (r : Registry) {w : Writer} (hdepth : w.depth = 0)
    (item : TypedExpr ⊕ TypedStmt) :
    (w.emit r item).buffer = w.buffer.writeAll (writesOf r item) := by
  cases item with
  | inl e => rfl
  | inr s =>
    change w.buffer.writeAll (stmtText r w.depth s).written = _
    rw [hdepth]
    rfl

theorem Attributed.emitAll (r : Registry) {w : Writer} (h : Attributed ws w.buffer)
    (hdepth : w.depth = 0) (items : List (TypedExpr ⊕ TypedStmt)) :
    Attributed (ws ++ items.flatMap (writesOf r)) (items.foldl (Writer.emit r) w).buffer := by
  induction items generalizing ws w with
  | nil => simpa using h
  | cons item items ih =>
    have hitem : Attributed (ws ++ writesOf r item) (w.emit r item).buffer := by
      rw [Writer.buffer_emit r hdepth]
      exact h.writeAll _
    simpa using ih hitem ((w.depth_emit r item).trans hdepth)

/-- After any writes into a new buffer its marks give each byte its origin, and so they do in the
buffer of a writer after any expressions and statements. -/
theorem marks_attribute_bytes :
    (∀ ws : List Write, Attributed ws (Buffer.empty.writeAll ws)) ∧
    ∀ (r : Registry) (items : List (TypedExpr ⊕ TypedStmt)),
      Attributed (items.flatMap (writesOf r)) (items.foldl (Writer.emit r) {}).buffer :=
  ⟨attributed_empty.writeAll, fun r => attributed_empty.emitAll (w := {}) r rfl⟩

/-- Empty text leaves a mark that no byte belongs to. -/
example :
    let here : Location := .origin
    let there : Location := { here with file := 1 }
    let b := Buffer.empty.writeAll [⟨"", here⟩, ⟨"é", there⟩, ⟨"", here⟩, ⟨"a", here⟩]
    b.marks = #[⟨0, here⟩, ⟨0, there⟩, ⟨2, here⟩] ∧ b.origin? 1 = some there ∧
      b.origin? 2 = some here := by
  decide

end Dynascript.Script
