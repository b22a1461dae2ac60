import Devicetree.BigEndian
import Devicetree.Error

/-!
# Reads confined to a region

A number or a string read at a place that the blob itself names. A read that would leave the region
fails and says which bytes it asked for. One that answers gives the number that is written at the
place (`wordAt_eq_ok_iff`, `doubleWordAt_eq_ok_iff`).
-/

namespace Devicetree

namespace Bytes

def wordAt (b : Bytes) (pos : Nat) : Except Error UInt32 :=
  BigEndian.word <$> valueOr (.outOfRegion pos 4) (b.region? pos 4)

def doubleWordAt (b : Bytes) (pos : Nat) : Except Error UInt64 :=
  BigEndian.doubleWord <$> valueOr (.outOfRegion pos 8) (b.region? pos 8)

section

variable {b : Bytes} {pos n : Nat} {α : Type} {decode : Bytes → α} {e : Error}

/-- A read gives what is written in the bytes that it asks for. -/
theorem decode_region?_eq_ok_iff {encode : α → Bytes} {a : α}
    (hd : ∀ a, decode (encode a) = a) (he : ∀ x, x.length = n → encode (decode x) = x) :
    decode <$> valueOr e (b.region? pos n) = .ok a ↔ b.region? pos n = some (encode a) := by
  rcases hr : b.region? pos n with _ | x
  · constructor <;> intro h <;> cases h
  · have hl : x.length = n := (region?_eq_some_iff_append.1 hr).2.1
    constructor
    · intro h
      cases h
      rw [he x hl]
    · intro h
      cases h
      show Except.ok (decode (encode a)) = _
      rw [hd]

theorem exists_decode_region?_iff :
    (∃ a, decode <$> valueOr e (b.region? pos n) = .ok a) ↔ pos + n ≤ b.length := by
  rcases hr : b.region? pos n with _ | x
  · rw [region?_eq_none_iff] at hr
    constructor
    · rintro ⟨a, h⟩
      cases h
    · intro h
      omega
  · exact ⟨fun _ => (region?_eq_some_iff.1 hr).1, fun _ => ⟨decode x, rfl⟩⟩

theorem wordAt_eq_ok_iff {w : UInt32} :
    b.wordAt pos = .ok w ↔ b.region? pos 4 = some (BigEndian.encodeWord w) :=
  decode_region?_eq_ok_iff BigEndian.word_encodeWord fun _ => BigEndian.encodeWord_word

theorem doubleWordAt_eq_ok_iff {w : UInt64} :
    b.doubleWordAt pos = .ok w ↔ b.region? pos 8 = some (BigEndian.encode 8 w.toNat) :=
  decode_region?_eq_ok_iff BigEndian.doubleWord_encode fun _ => BigEndian.encode_doubleWord

theorem exists_wordAt_iff : (∃ w, b.wordAt pos = .ok w) ↔ pos + 4 ≤ b.length :=
  exists_decode_region?_iff

theorem exists_doubleWordAt_iff : (∃ w, b.doubleWordAt pos = .ok w) ↔ pos + 8 ≤ b.length :=
  exists_decode_region?_iff

/-- Where two words stand in a row, a number of 64 bits is read, the first its high half. -/
theorem exists_doubleWordAt_of_words {high low : UInt32} (hh : b.wordAt pos = .ok high)
    (hl : b.wordAt (pos + 4) = .ok low) :
    ∃ w, b.doubleWordAt pos = .ok w ∧ w.toNat = high.toNat * UInt32.size + low.toNat := by
  obtain ⟨w, he, hw⟩ := BigEndian.exists_encodeWord_append_eq high low
  rw [wordAt_eq_ok_iff] at hh hl
  have hr : b.region? pos 8 = some (BigEndian.encode 8 w.toNat) := he ▸ region?_add hh hl
  exact ⟨w, doubleWordAt_eq_ok_iff.2 hr, hw⟩

end

/-- The string at `pos`. When no zero byte ends it, the read that fails includes the byte after the
last one of the region. -/
def stringAt (b : Bytes) (pos : Nat) : Except Error Bytes :=
  valueOr (.outOfRegion pos ((b.drop pos).length + 1)) (b.stringAt? pos)

def text (b : Bytes) : Except Error String :=
  (Utf8.decode b).mapError .notText

end Bytes

end Devicetree
