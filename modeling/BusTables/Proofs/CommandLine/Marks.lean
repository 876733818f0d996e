import BusTables.CommandLine.Session
import Mathlib.Tactic.SplitIfs

/-!
# Contents with marks

A content that starts with no mark of an encoding other than UTF-8 is read behind the mark of
UTF-8, if it has that mark and at least four bytes, and as it stands otherwise (`load_bytes`).  This
takes a toolkit that tells the mark of UTF-8 (`Toolkit.Detects`), as the standard one does.
-/

namespace BusTables

namespace ByteOrderMark

/-- The bytes that announce an encoding. -/
def spellings : ByteOrderMark → List (List UInt8)
  | .utf8 => [[0xEF, 0xBB, 0xBF]]
  | .utf16Big => [[0xFE, 0xFF]]
  | .utf16Little => [[0xFF, 0xFE]]
  | .utf32Big => [[0x00, 0x00, 0xFE, 0xFF]]
  | .utf32Little => [[0xFF, 0xFE, 0x00, 0x00]]
  | .utf7 => [0x38, 0x39, 0x2B, 0x2F].map fun last => [0x2B, 0x2F, 0x76, last]
  | .utf1 => [[0xF7, 0x64, 0x4C]]
  | .utfEbcdic => [[0xDD, 0x73, 0x66, 0x73]]
  | .scsu => [[0x0E, 0xFE, 0xFF]]
  | .bocu1 => [[0xFB, 0xEE, 0x28]]
  | .gb18030 => [[0x84, 0x31, 0x95, 0x33]]

/-- A content starts with a mark. -/
def Marks (mark : ByteOrderMark) (content : List UInt8) : Prop :=
  ∃ spelling ∈ mark.spellings, spelling <+: content

instance (mark : ByteOrderMark) (content : List UInt8) : Decidable (mark.Marks content) :=
  inferInstanceAs (Decidable (∃ spelling ∈ mark.spellings, spelling <+: content))

/-- A content starts with the mark of an encoding other than UTF-8. -/
def Foreign (content : List UInt8) : Prop :=
  ∃ mark : ByteOrderMark, mark ≠ .utf8 ∧ mark.Marks content

/-- A content without the mark of UTF-8; fewer than four bytes are no mark. -/
def skip (content : List UInt8) : List UInt8 :=
  if 4 ≤ content.length ∧ utf8.Marks content then content.drop 3 else content

theorem marks_utf8_iff {content : List UInt8} :
    utf8.Marks content ↔ [0xEF, 0xBB, 0xBF] <+: content := by
  simp [Marks, spellings]

/-- What a content starts with announces no encoding, unless the content does. -/
theorem ne_of_not_foreign {content start spelling : List UInt8} (native : ¬Foreign content)
    (mark : ByteOrderMark) (other : mark ≠ .utf8) (starts : start <+: content)
    (spelled : spelling ∈ mark.spellings) : start ≠ spelling := by
  rintro rfl
  exact native ⟨mark, other, start, spelled, starts⟩

theorem ofQuad?_of_not_foreign {first second third fourth : UInt8} {later : List UInt8}
    (native : ¬Foreign (first :: second :: third :: fourth :: later)) :
    ofQuad? first second third fourth =
      if [first, second, third] = [0xEF, 0xBB, 0xBF] then some .utf8 else none := by
  have pair : [first, second] <+: first :: second :: third :: fourth :: later :=
    List.prefix_append _ (third :: fourth :: later)
  have triple : [first, second, third] <+: first :: second :: third :: fourth :: later :=
    List.prefix_append _ (fourth :: later)
  have quad : [first, second, third, fourth] <+: first :: second :: third :: fourth :: later :=
    List.prefix_append _ later
  have utf7Free : ¬([first, second, third] = [0x2B, 0x2F, 0x76] ∧
      fourth ∈ [0x38, 0x39, 0x2B, 0x2F]) := by
    rintro ⟨start, last⟩
    cases start
    exact ne_of_not_foreign native .utf7 (by decide) quad (List.mem_map_of_mem last) rfl
  unfold ofQuad?
  rw [if_neg (ne_of_not_foreign native .utf32Big (by decide) quad (by decide)),
    if_neg (ne_of_not_foreign native .utf32Little (by decide) quad (by decide)),
    if_neg (ne_of_not_foreign native .utfEbcdic (by decide) quad (by decide)),
    if_neg (ne_of_not_foreign native .gb18030 (by decide) quad (by decide)), if_neg utf7Free]
  by_cases marked : [first, second, third] = [0xEF, 0xBB, 0xBF]
  · rw [if_pos marked, if_pos marked]
  · rw [if_neg marked, if_neg marked,
      if_neg (ne_of_not_foreign native .utf1 (by decide) triple (by decide)),
      if_neg (ne_of_not_foreign native .scsu (by decide) triple (by decide)),
      if_neg (ne_of_not_foreign native .bocu1 (by decide) triple (by decide)),
      if_neg (ne_of_not_foreign native .utf16Big (by decide) pair (by decide)),
      if_neg (ne_of_not_foreign native .utf16Little (by decide) pair (by decide))]

theorem ofContent?_of_not_foreign {content : List UInt8} (native : ¬Foreign content) :
    ofContent? content =
      if 4 ≤ content.length ∧ utf8.Marks content then some .utf8 else none := by
  match content with
  | [] | [_] | [_, _] | [_, _, _] => rfl
  | first :: second :: third :: fourth :: later =>
      rw [ofContent?, ofQuad?_of_not_foreign native]
      simp [marks_utf8_iff, eq_comm]

end ByteOrderMark

namespace CommandLine

open ByteOrderMark

/-- Where no other encoding is announced, the mark of UTF-8 is told, and nothing else. -/
def Toolkit.Detects (toolkit : Toolkit) : Prop :=
  ∀ content, ¬Foreign content →
    toolkit.mark? content =
      if 4 ≤ content.length ∧ utf8.Marks content then some .utf8 else none

theorem Toolkit.detects_standard : Toolkit.standard.Detects :=
  fun _ native => ofContent?_of_not_foreign native

section Loading

variable {toolkit : Toolkit} {content : List UInt8}

theorem load_of_unmarked (unmarked : toolkit.mark? content = none) :
    load toolkit (.bytes content) = Configuration.buildFromContent toolkit.parser content := by
  rw [load, unmarked]

theorem load_bytes (detects : toolkit.Detects) (native : ¬Foreign content) :
    load toolkit (.bytes content) =
      Configuration.buildFromContent toolkit.parser (skip content) := by
  rw [load, detects content native, skip]
  split_ifs <;> rfl

end Loading

end CommandLine

end BusTables
