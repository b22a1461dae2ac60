import Devicetree.Bytes

/-!
# UTF-8

`decode` reads bytes as text and on a fault says where the text stops being valid and how many
bytes are to blame. A character takes up a lead byte and as many continuation bytes as the lead
byte asks for. The first continuation byte may be confined further, which keeps out overlong forms,
surrogates and numbers above the last code point.
-/

namespace Devicetree

namespace Utf8

/-- Where a text stops being valid. -/
structure Fault where
  /-- The length of the longest valid beginning. -/
  validUpTo : Nat
  /-- How many bytes after it begin no character, or `none` if the text ends inside one. -/
  badLength : Option Nat
  deriving DecidableEq, Repr

/-- What a lead byte says: its share of the code point, and the least and the greatest value of
each byte that has to follow. -/
def lead? (c : UInt8) : Option (Nat × List (UInt8 × UInt8)) :=
  let any : UInt8 × UInt8 := (0x80, 0xbf)
  if c < 0x80 then some (c.toNat, [])
  else if c < 0xc2 then none
  else if c < 0xe0 then some (c.toNat - 0xc0, [any])
  else if c = 0xe0 then some (0, [(0xa0, 0xbf), any])
  else if c = 0xed then some (0xd, [(0x80, 0x9f), any])
  else if c < 0xf0 then some (c.toNat - 0xe0, [any, any])
  else if c = 0xf0 then some (0, [(0x90, 0xbf), any, any])
  else if c < 0xf4 then some (c.toNat - 0xf0, [any, any, any])
  else if c = 0xf4 then some (4, [(0x80, 0x8f), any, any])
  else none

/-- Reads the bytes that have to follow, after `read` bytes that spell `point` so far. Fails with
the number of bytes read when one is out of its range, and with `none` when the bytes run out. -/
def follow : List (UInt8 × UInt8) → (read point : Nat) → Bytes → Except (Option Nat) (Nat × Bytes)
  | [], _, point, b => .ok (point, b)
  | _ :: _, _, _, [] => .error none
  | (least, greatest) :: ranges, read, point, c :: b =>
    if least ≤ c ∧ c ≤ greatest then follow ranges (read + 1) (point * 64 + (c.toNat - 0x80)) b
    else .error (some read)

theorem length_of_follow {ranges : List (UInt8 × UInt8)} {read point point' : Nat} {b b' : Bytes}
    (h : follow ranges read point b = .ok (point', b')) : b'.length + ranges.length = b.length := by
  fun_induction follow ranges read point b with
  | case1 => simp_all
  | case2 => simp at h
  | case3 _ _ _ _ _ _ _ _ ih => simp [← ih h]; omega
  | case4 => simp at h

/-- Decodes from `pos` on, where `done` are the characters so far, the last one first. -/
def decodeFrom (pos : Nat) (done : List Char) : Bytes → Except Fault String
  | [] => .ok (String.ofList done.reverse)
  | c :: b =>
    match lead? c with
    | none => .error ⟨pos, some 1⟩
    | some (point, ranges) =>
      match h : follow ranges 1 point b with
      | .error badLength => .error ⟨pos, badLength⟩
      | .ok (point, b') => decodeFrom (pos + 1 + ranges.length) (Char.ofNat point :: done) b'
termination_by b => b.length
decreasing_by
  have := length_of_follow h
  simp only [List.length_cons]
  omega

def decode (b : Bytes) : Except Fault String :=
  decodeFrom 0 [] b

def Fault.message (f : Fault) : String :=
  match f.badLength with
  | some n => "invalid utf-8 sequence of " ++ toString n ++ " bytes from index "
      ++ toString f.validUpTo
  | none => "incomplete utf-8 byte sequence from index " ++ toString f.validUpTo

end Utf8

end Devicetree
