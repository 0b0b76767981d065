import Mathlib.Data.List.DropRight
import Tariff.Proofs.Script.Advance

/-! From the start past as many line feeds as there are lines above, and then past as many characters of
that line as there are columns before, the walk ends at the very byte that the position was made for. -/

set_option autoImplicit false

namespace Tariff.Script

namespace Position

def bytes : List Char → Nat
  | [] => 0
  | c :: rest => c.utf8Size + bytes rest

def skipLines : Nat → List Char → Option (Nat × List Char)
  | 0, text => some (0, text)
  | _ + 1, [] => none
  | lines + 1, c :: rest =>
      (skipLines (if c = '\n' then lines else lines + 1) rest).map fun (passed, left) =>
        (c.utf8Size + passed, left)

def skipColumns : Nat → List Char → Option Nat
  | 0, _ => some 0
  | _ + 1, [] => none
  | columns + 1, c :: rest =>
      if c = '\n' then none else (skipColumns columns rest).map (c.utf8Size + ·)

-- Lines and columns count from one, so a position with a zero points nowhere.
def offset? (text : String) : Position → Option Nat
  | ⟨line + 1, column + 1⟩ => do
      let (above, left) ← skipLines line text.toList
      let before ← skipColumns column left
      return above + before
  | _ => none

theorem bytes_append (text more : List Char) : bytes (text ++ more) = bytes text + bytes more := by
  induction text with
  | nil => simp [bytes]
  | cons c rest ih => simp [bytes, ih, Nat.add_assoc]

theorem bytes_eq (text : List Char) : bytes text = (String.ofList text).utf8ByteSize := by
  induction text with
  | nil => rfl
  | cons c rest ih =>
      rw [String.ofList_cons, String.utf8ByteSize_append, ← ih]
      simp [bytes]

def Ended (above : List Char) : Prop := ∀ c ∈ above.getLast?, c = '\n'

theorem Ended.tail {c : Char} {above : List Char} (ended : Ended (c :: above)) : Ended above := by
  cases above with
  | nil => simp [Ended]
  | cons d more => simpa [Ended, List.getLast?_cons_cons] using ended

theorem Ended.feed_mem {above : List Char} (ended : Ended above) (nonempty : above ≠ []) :
    '\n' ∈ above := by
  have feed := ended _ (List.getLast?_eq_some_getLast nonempty)
  exact feed ▸ List.getLast_mem nonempty

theorem lines_split (text : List Char) :
    ∃ above line, text = above ++ line ∧ Ended above ∧ '\n' ∉ line := by
  refine ⟨text.rdropWhile (· != '\n'), text.rtakeWhile (· != '\n'),
    List.rdropWhile_append_rtakeWhile.symm, ?_, ?_⟩
  · intro c last
    have nonempty : text.rdropWhile (· != '\n') ≠ [] := by
      intro empty
      simp [empty] at last
    have notAccepted := List.rdropWhile_last_not (· != '\n') text nonempty
    rw [List.getLast?_eq_getLast_of_ne_nil nonempty, Option.mem_some_iff] at last
    rw [last] at notAccepted
    simpa using notAccepted
  · intro member
    simpa using List.mem_rtakeWhile_imp member

theorem behind_lines {above line : List Char} (ended : Ended above) (oneLine : '\n' ∉ line) :
    behind (above ++ line) = ⟨above.count '\n' + 1, line.length + 1⟩ := by
  have feeds : (above ++ line).count '\n' = above.count '\n' := by
    rw [List.count_append, List.count_eq_zero.mpr oneLine, Nat.add_zero]
  have whole : ∀ c ∈ line.reverse, (c != '\n') = true := by
    intro c member
    rw [bne_iff_ne]
    exact fun feed => oneLine (feed ▸ List.mem_reverse.mp member)
  have stops : above.reverse.takeWhile (· != '\n') = [] := by
    cases shape : above.reverse with
    | nil => rfl
    | cons c more =>
        have feed : c = '\n' := ended c (by simp [← List.head?_reverse, shape])
        rw [List.takeWhile_cons_of_neg (by simp [feed])]
  rw [behind, feeds, List.reverse_append, List.takeWhile_append_of_pos whole, stops,
    List.append_nil, List.length_reverse]

theorem skip_lines_ended {above : List Char} (ended : Ended above) (rest : List Char) :
    skipLines (above.count '\n') (above ++ rest) = some (bytes above, rest) := by
  induction above with
  | nil => simp [skipLines, bytes]
  | cons c more ih =>
      have remaining := ih ended.tail
      by_cases feed : c = '\n'
      · simp [feed, skipLines, remaining, bytes]
      -- Another character is passed without counting, for a line feed is still to come.
      · obtain ⟨lines, count⟩ : ∃ lines, more.count '\n' = lines + 1 := by
          have nonempty : more ≠ [] := fun empty => feed (ended c (by simp [empty]))
          exact Nat.exists_eq_add_one.mpr (List.count_pos_iff.mpr (ended.tail.feed_mem nonempty))
        rw [count] at remaining
        rw [List.count_cons_of_ne feed, count, List.cons_append, skipLines, if_neg feed, remaining]
        simp [bytes]

theorem skip_columns_line {line : List Char} (oneLine : '\n' ∉ line) (rest : List Char) :
    skipColumns line.length (line ++ rest) = some (bytes line) := by
  induction line with
  | nil => simp [skipColumns, bytes]
  | cons c more ih =>
      simp only [List.mem_cons, not_or] at oneLine
      rw [List.length_cons, List.cons_append, skipColumns, if_neg (Ne.symm oneLine.1), ih oneLine.2]
      simp [bytes]

theorem offset?_behind {text : String} {before rest : List Char}
    (split : text.toList = before ++ rest) : (behind before).offset? text = some (bytes before) := by
  obtain ⟨above, line, same, ended, oneLine⟩ := lines_split before
  have passed : skipLines (above.count '\n') text.toList = some (bytes above, line ++ rest) := by
    rw [split, same, List.append_assoc, skip_lines_ended ended]
  rw [same, behind_lines ended oneLine, offset?, passed, bytes_append]
  simp [skip_columns_line oneLine]

variable {text : String}

theorem place_split (place : text.Pos) :
    text.toList = (text.sliceTo place).copy.toList ++ (text.sliceFrom place).copy.toList :=
  (congrArg String.toList place.splits.eq_append).trans String.toList_append

theorem place_offset (place : text.Pos) :
    place.offset.byteIdx = bytes (text.sliceTo place).copy.toList := by
  rw [place.splits.offset_eq_rawEndPos, String.byteIdx_rawEndPos, bytes_eq, String.ofList_toList]

theorem exists_place {before rest : List Char} (split : text.toList = before ++ rest) :
    ∃ place : text.Pos, (text.sliceTo place).copy.toList = before ∧
      (text.sliceFrom place).copy.toList = rest := by
  have whole : text = String.ofList before ++ String.ofList rest := by
    rw [← String.ofList_append, ← split, String.ofList_toList]
  have splits := String.Pos.splits_ofEqAppend whole
  refine ⟨String.Pos.ofEqAppend whole, ?_, ?_⟩
  · rw [splits.copy_sliceTo_eq, String.toList_ofList]
  · rw [splits.copy_sliceFrom_eq, String.toList_ofList]

theorem pos?_offset (place : text.Pos) : text.pos? place.offset = some place := by
  have valid : String.Pos.Raw.isValidForSlice text.toSlice place.offset = true := by
    rw [String.Pos.Raw.isValidForSlice_eq_true_iff, String.Pos.Raw.isValidForSlice_toSlice_iff]
    exact place.isValid
  rw [String.pos?, String.Slice.pos?, dif_pos valid]
  rfl

theorem of_offset_place (place : text.Pos) :
    ofOffset text place.offset.byteIdx = behind (text.sliceTo place).copy.toList := by
  rw [ofOffset, pos?_offset]

theorem offset?_behind_place (place : text.Pos) :
    (behind (text.sliceTo place).copy.toList).offset? text = some place.offset.byteIdx := by
  rw [place_offset]
  exact offset?_behind (place_split place)

end Position

-- The bytes of the whole text less those that are left are the ones in front, so the offset is always
-- between two characters.
theorem error_at_append (before rest : List Char) (complaint : Complaint) :
    errorAt (before ++ rest) rest complaint = ⟨.behind before, complaint.message⟩ := by
  obtain ⟨place, front, _⟩ :=
    Position.exists_place (String.toList_ofList : (String.ofList (before ++ rest)).toList = _)
  have size : (String.ofList (before ++ rest)).utf8ByteSize - (String.ofList rest).utf8ByteSize =
      place.offset.byteIdx := by
    rw [← Position.bytes_eq, ← Position.bytes_eq, Position.bytes_append, Nat.add_sub_cancel,
      Position.place_offset, front]
  rw [errorAt, size, Error.ofOffset, Position.of_offset_place, front]

theorem of_string_error {text : String} {error : Error} (failed : ofString text = .error error) :
    ∃ before, text.toList = before ++ (statements text.toList).rest ∧
      error.position = .behind before := by
  obtain ⟨before, split⟩ := statements_advance text.toList
  have located (complaint : Complaint)
      (same : errorAt text.toList (statements text.toList).rest complaint = error) :
      error.position = .behind before := by
    rw [← same]
    nth_rewrite 1 [← split]
    rw [error_at_append]
  refine ⟨before, split.symm, ?_⟩
  rw [ofString, ofChars] at failed
  cases reading : statements text.toList with
  | done found rest =>
      rw [reading] at failed located
      cases rest with
      | nil => cases failed
      | cons c more =>
          cases failed
          exact located .none rfl
  | missed rest complaint =>
      rw [reading] at failed located
      cases failed
      exact located complaint rfl
  | stopped rest complaint =>
      rw [reading] at failed located
      cases failed
      exact located complaint rfl

theorem error_positions_are_exact (text : String) :
    (∀ (place : text.Pos) (detail : String),
      (Error.ofOffset text place.offset.byteIdx detail).position.offset? text =
        some place.offset.byteIdx) ∧
    (∀ (place other : text.Pos) (detail otherDetail : String),
      (Error.ofOffset text place.offset.byteIdx detail).position =
        (Error.ofOffset text other.offset.byteIdx otherDetail).position ↔ place = other) ∧
    ∀ error, ofString text = .error error → ∃ place : text.Pos,
      (text.sliceFrom place).copy.toList = (statements text.toList).rest ∧
        error.position.offset? text = some place.offset.byteIdx := by
  have points (place : text.Pos) (detail : String) :
      (Error.ofOffset text place.offset.byteIdx detail).position.offset? text =
        some place.offset.byteIdx := by
    rw [Error.ofOffset, Position.of_offset_place]
    exact Position.offset?_behind_place place
  refine ⟨points, fun place other detail otherDetail => ⟨fun same => ?_, ?_⟩, ?_⟩
  · have offsets := congrArg (Position.offset? text) same
    rw [points, points, Option.some.injEq] at offsets
    exact String.Pos.ext (String.Pos.Raw.ext offsets)
  · intro same
    rw [same]
    rfl
  · intro error failed
    obtain ⟨before, split, shape⟩ := of_string_error failed
    obtain ⟨place, front, left⟩ := Position.exists_place split
    refine ⟨place, left, ?_⟩
    rw [shape, ← front]
    exact Position.offset?_behind_place place

theorem error_positions_are_exact_after_euro :
    ofString "# 5 €\ncamper é" = .error ⟨⟨2, 8⟩, "expected rule name"⟩ ∧
      ∃ place : String.Pos "# 5 €\ncamper é",
        (String.sliceFrom _ place).copy.toList = ['é'] ∧ place.offset.byteIdx = 15 := by
  have reading : statements "# 5 €\ncamper é".toList = .stopped ['é'] ⟨["rule name"], .none⟩ := rfl
  have failed : ofString "# 5 €\ncamper é" = .error ⟨⟨2, 8⟩, "expected rule name"⟩ := by
    rw [ofString, ofChars, reading]
    exact congrArg Except.error (error_at_append "# 5 €\ncamper ".toList ['é'] _)
  have passed : Position.offset? "# 5 €\ncamper é" ⟨2, 8⟩ = some 15 := by decide
  obtain ⟨place, rest, points⟩ := (error_positions_are_exact _).2.2 _ failed
  refine ⟨failed, place, ?_, ?_⟩
  · rw [rest, reading]
    rfl
  · exact Option.some.inj (points.symm.trans passed)

end Tariff.Script
