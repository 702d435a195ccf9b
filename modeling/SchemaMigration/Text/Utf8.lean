/-!
# Faults in UTF-8

Where a run of bytes stops being UTF-8, and how that is worded. A fault covers the bytes that begin
a character up to the first one that cannot go on with it, or runs to the end of the bytes if they
end inside a character.
-/

namespace SchemaMigration.Text

/-- The first fault of a run of bytes. -/
structure Utf8Fault where
  /-- The bytes before the fault. -/
  index : Nat
  /-- The bytes of the fault; none where the bytes end inside a character. -/
  length : Option Nat
deriving DecidableEq

/-- The range of a byte that continues a character. -/
def continuing : Nat × Nat := (0x80, 0xBF)

/-- The range of the byte after a leading byte: overlong forms, surrogates and numbers beyond the
last code point are left out. -/
def secondRange (leading : Nat) : Nat × Nat :=
  if leading = 0xE0 then (0xA0, 0xBF)
  else if leading = 0xED then (0x80, 0x9F)
  else if leading = 0xF0 then (0x90, 0xBF)
  else if leading = 0xF4 then (0x80, 0x8F)
  else continuing

/-- The ranges of the bytes after a leading byte; none where no character begins with it. -/
def followers? (leading : Nat) : Option (List (Nat × Nat)) :=
  if leading < 0x80 then some []
  else if 0xC2 ≤ leading ∧ leading ≤ 0xDF then some [continuing]
  else if 0xE0 ≤ leading ∧ leading ≤ 0xEF then some [secondRange leading, continuing]
  else if 0xF0 ≤ leading ∧ leading ≤ 0xF4 then some [secondRange leading, continuing, continuing]
  else none

/-- The first fault of the bytes after a character's beginning: `start` bytes stand before the
character, `seen` of its bytes were read and `due` are the ranges of the others. -/
def faultAfter? (start seen : Nat) (due : List (Nat × Nat)) : List UInt8 → Option Utf8Fault
  | [] => if due.isEmpty then none else some ⟨start, none⟩
  | b :: rest =>
    match due with
    | [] =>
      match followers? b.toNat with
      | none => some ⟨start, some 1⟩
      | some [] => faultAfter? (start + 1) 0 [] rest
      | some ranges => faultAfter? start 1 ranges rest
    | (least, greatest) :: later =>
      if b.toNat < least ∨ greatest < b.toNat then some ⟨start, some seen⟩
      else if later.isEmpty then faultAfter? (start + seen + 1) 0 [] rest
      else faultAfter? start (seen + 1) later rest

/-- The first fault of a run of bytes. -/
def utf8Fault? (bytes : List UInt8) : Option Utf8Fault :=
  faultAfter? 0 0 [] bytes

end SchemaMigration.Text
