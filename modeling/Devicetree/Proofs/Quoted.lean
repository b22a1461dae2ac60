import Devicetree.Proofs.LogLines
import Devicetree.Proofs.Utf8
import Devicetree.Text.Quoted

/-!
# Quoted bytes can be told apart

Two runs of bytes that are quoted alike are the same (`Quoted.bytes_injective`), and all of what is
written shows (`Quoted.shows_of_mem_bytes`). Between quotes a character is shown as itself, as a
letter or as a number (`Quoted.Shown`), and no form is the beginning of another, so that a text is
told from its forms in a row.
-/

namespace Devicetree

theorem flatMap_inj_of_append_inj {α β : Type} {f : α → List β} (hne : ∀ a, f a ≠ [])
    (h : ∀ {a a' y y'}, f a ++ y = f a' ++ y' → a = a' ∧ y = y') :
    ∀ {l l' : List α}, l.flatMap f = l'.flatMap f → l = l'
  | [], [], _ => rfl
  | [], a :: _, hl => absurd (List.append_eq_nil_iff.1 hl.symm).1 (hne a)
  | a :: _, [], hl => absurd (List.append_eq_nil_iff.1 hl).1 (hne a)
  | a :: l, a' :: l', hl => by
    rw [List.flatMap_cons, List.flatMap_cons] at hl
    obtain ⟨rfl, htail⟩ := h hl
    rw [flatMap_inj_of_append_inj hne h htail]

/-! ## Numerals -/

/-- The number that digits spell, the most significant first. -/
def numberOf (base : Nat) (digits : List Char) : Nat :=
  digits.foldl (fun n c => base * n + Hex.lower.idxOf c) 0

theorem idxOf_digitChar {n : Nat} (h : n < 16) : Hex.lower.idxOf (Nat.digitChar n) = n :=
  (by decide : ∀ n < 16, Hex.lower.idxOf (Nat.digitChar n) = n) n h

theorem numberOf_toDigits {base : Nat} (hb : 1 < base) (hle : base ≤ 16) (n : Nat) :
    numberOf base (Nat.toDigits base n) = n := by
  induction n using Nat.strongRecOn with
  | _ n ih =>
    by_cases hn : n < base
    · rw [Nat.toDigits_of_lt_base hn, numberOf, List.foldl_cons, List.foldl_nil, Nat.mul_zero,
        Nat.zero_add, idxOf_digitChar (Nat.lt_of_lt_of_le hn hle)]
    · have hn : base ≤ n := Nat.le_of_not_lt hn
      have hdigit : n % base < 16 := Nat.lt_of_lt_of_le (Nat.mod_lt n (by omega)) hle
      have hfront : numberOf base (Nat.toDigits base (n / base)) = n / base :=
        ih (n / base) (Nat.div_lt_self (by omega) hb)
      rw [numberOf] at hfront
      rw [Nat.toDigits_of_base_le hb hn, numberOf, List.foldl_append, hfront, List.foldl_cons,
        List.foldl_nil, idxOf_digitChar hdigit, Nat.div_add_mod]

theorem toDigits_inj {base : Nat} (hb : 1 < base) (hle : base ≤ 16) {m n : Nat}
    (h : Nat.toDigits base m = Nat.toDigits base n) : m = n := by
  rw [← numberOf_toDigits hb hle m, h, numberOf_toDigits hb hle n]

theorem notMem_toDigits {base : Nat} (hb : 1 < base) (hle : base ≤ 16) {c : Char}
    (hc : c ∉ Hex.lower) (n : Nat) : c ∉ Nat.toDigits base n :=
  fun hm => hc (toDigits_subset_lower hb hle n hm)

/-! ## Characters that show -/

namespace CodePoint

/-- No character from the space to the tilde is in ranges that stop below or start above these. -/
theorem isIn_eq_false {ranges : List (Nat × Nat)} {c : Char}
    (hr : ranges.all (fun r => r.2 < 0x20 || 0x7e < r.1) = true) (h : Escaped.IsPrintable c) :
    isIn ranges c.toNat = false := by
  obtain ⟨hspace, htilde⟩ := h
  rw [isIn, List.any_eq_false]
  intro r hm
  have hapart := List.all_eq_true.1 hr r hm
  simp only [Bool.or_eq_true, Bool.and_eq_true, decide_eq_true_eq] at hapart ⊢
  omega

theorem shows_of_printable {c : Char} (h : Escaped.IsPrintable c) : shows c = true := by
  have hunprintable : isIn unprintableRanges c.toNat = false := isIn_eq_false (by decide +kernel) h
  have hfiller : isIn fillerRanges c.toNat = false := isIn_eq_false (by decide +kernel) h
  have hextend : isIn graphemeExtendRanges c.toNat = false := isIn_eq_false (by decide +kernel) h
  rw [shows, isHidden, hunprintable, hfiller, hextend]
  rfl

end CodePoint

theorem Printable.shows {s : String} (h : Printable s) : ∀ c ∈ s.toList, CodePoint.shows c = true :=
  fun c hc => CodePoint.shows_of_printable (h c hc)

theorem Printable.intercalate {s : String} (hs : Printable s) : ∀ {l : List String},
    (∀ t ∈ l, Printable t) → Printable (s.intercalate l)
  | [], _ => .literal rfl
  | [t], h => by
    rw [String.intercalate_singleton]
    exact h t List.mem_cons_self
  | t :: t' :: l, h => by
    rw [String.intercalate_cons_of_ne_nil (List.cons_ne_nil _ _)]
    obtain ⟨ht, hl⟩ := List.forall_mem_cons.1 h
    exact .append (.append ht hs) (intercalate hs hl)

namespace Quoted

/-- The characters that are shown as a letter, each with its letter. -/
def letters : List (Char × Char) :=
  [('\x00', '0'), ('\t', 't'), ('\n', 'n'), ('\r', 'r'), ('"', '"'), ('\\', '\\')]

/-- How a character is shown between quotes: as a letter if it has one, and else as itself if it
shows and as the number of its code point if it does not. -/
inductive Shown (c : Char) : List Char → Prop where
  | letter {letter : Char} : (c, letter) ∈ letters → Shown c ['\\', letter]
  | itself : (∀ letter, (c, letter) ∉ letters) → CodePoint.shows c = true → Shown c [c]
  | number : (∀ letter, (c, letter) ∉ letters) → CodePoint.shows c = false →
      Shown c ('\\' :: 'u' :: '\x7b' :: (Hex.digits c.toNat ++ ['\x7d']))

theorem shown_char (c : Char) : Shown c (char c) := by
  unfold char
  split
  · exact .letter (by decide)
  · exact .letter (by decide)
  · exact .letter (by decide)
  · exact .letter (by decide)
  · exact .letter (by decide)
  · exact .letter (by decide)
  · have hletter : ∀ letter, (c, letter) ∉ letters := by
      intro letter hm
      simp_all [letters]
    split
    · exact .itself hletter ‹_›
    · exact .number hletter (eq_false_of_ne_true ‹_›)

namespace Shown

variable {c c' : Char} {x x' y y' : List Char}

theorem ne_backslash (h : ∀ letter, (c, letter) ∉ letters) : c ≠ '\\' := by
  rintro rfl
  exact h '\\' (by decide)

/-- A backslash begins a letter or a number, and it is no letter that begins a number. -/
theorem append_inj (h : Shown c x) (h' : Shown c' x') (he : x ++ y = x' ++ y') :
    c = c' ∧ y = y' := by
  have hu : ∀ p ∈ letters, p.2 ≠ 'u' := by simp [letters]
  have hinj : ∀ p ∈ letters, ∀ q ∈ letters, p.2 = q.2 → p.1 = q.1 := by simp [letters]
  have hbrace : ∀ n, '\x7d' ∉ Hex.digits n :=
    notMem_toDigits (by decide) (by decide) (by decide)
  cases h with
  | letter hm =>
    cases h' with
    | letter hm' =>
      obtain ⟨-, he⟩ := List.cons.inj he
      obtain ⟨hl, he⟩ := List.cons.inj he
      exact ⟨hinj _ hm _ hm' hl, he⟩
    | itself hl => exact absurd (List.cons.inj he).1.symm (ne_backslash hl)
    | number => exact absurd (List.cons.inj (List.cons.inj he).2).1 (hu _ hm)
  | itself hl =>
    cases h' with
    | letter => exact absurd (List.cons.inj he).1 (ne_backslash hl)
    | itself => exact List.cons.inj he
    | number => exact absurd (List.cons.inj he).1 (ne_backslash hl)
  | number =>
    cases h' with
    | letter hm' => exact absurd (List.cons.inj (List.cons.inj he).2).1.symm (hu _ hm')
    | itself hl => exact absurd (List.cons.inj he).1.symm (ne_backslash hl)
    | number =>
      simp only [List.cons_append, List.append_assoc, List.cons.injEq, true_and,
        List.nil_append] at he
      obtain ⟨hd, hy⟩ := append_cons_inj_of_notMem (hbrace _) (hbrace _) he
      exact ⟨Char.toNat_inj.1 (toDigits_inj (by decide) (by decide) hd), hy⟩

theorem ne_nil (h : Shown c x) : x ≠ [] := by
  cases h <;> exact List.cons_ne_nil _ _

theorem shows (h : Shown c x) : ∀ d ∈ x, CodePoint.shows d = true := by
  have hletter : ∀ p ∈ letters, Escaped.IsPrintable p.2 := by simp [letters, Escaped.IsPrintable]
  cases h with
  | letter hm =>
    intro d hd
    simp only [List.mem_cons, List.not_mem_nil, or_false] at hd
    rcases hd with rfl | rfl
    · exact CodePoint.shows_of_printable (by decide)
    · exact CodePoint.shows_of_printable (hletter _ hm)
  | itself _ hs =>
    intro d hd
    rwa [List.mem_singleton.1 hd]
  | number =>
    intro d hd
    refine CodePoint.shows_of_printable ?_
    simp only [List.mem_cons, List.mem_append, List.not_mem_nil, or_false] at hd
    rcases hd with rfl | rfl | rfl | hd | rfl
    · decide
    · decide
    · decide
    · exact toDigits_printable (by decide) (by decide) c.toNat d hd
    · decide

end Shown

theorem text_inj {s s' : String} (h : text s = text s') : s = s' := by
  have hl : '"' :: (s.toList.flatMap char ++ ['"']) = '"' :: (s'.toList.flatMap char ++ ['"']) :=
    String.ofList_inj.1 h
  have hchars := List.append_cancel_right (List.cons.inj hl).2
  exact String.toList_inj.1 (flatMap_inj_of_append_inj (fun c => (shown_char c).ne_nil)
    (fun he => (shown_char _).append_inj (shown_char _) he) hchars)

theorem shows_of_mem_text {s : String} : ∀ c ∈ (text s).toList, CodePoint.shows c = true := by
  have hquote : CodePoint.shows '"' = true := CodePoint.shows_of_printable (by decide)
  intro c hc
  rw [text, String.toList_ofList] at hc
  simp only [List.mem_cons, List.mem_append, List.not_mem_nil, or_false, List.mem_flatMap] at hc
  rcases hc with rfl | ⟨d, -, hc⟩ | rfl
  · exact hquote
  · exact (shown_char d).shows c hc
  · exact hquote

/-! ## Lists of values -/

section

variable {α : Type} {f : α → List Char} {s : List Char}

/-- A row with a separator behind each of its items, the last one too. -/
theorem intercalate_map_append (f : α → List Char) (s : List Char) : ∀ {l : List α}, l ≠ [] →
    s.intercalate (l.map f) ++ s = l.flatMap fun a => f a ++ s
  | [a], _ => by simp
  | a :: a' :: l, _ => by
    rw [List.map_cons, List.map_cons, List.intercalate_cons_cons, ← List.map_cons,
      List.append_assoc, intercalate_map_append f s (List.cons_ne_nil a' l)]
    rfl

theorem intercalate_map_ne_nil (hne : ∀ a, f a ≠ []) {l : List α} (hl : l ≠ []) :
    s.intercalate (l.map f) ≠ [] := by
  cases l with
  | nil => exact absurd rfl hl
  | cons a l =>
    intro h
    have hrow := intercalate_map_append f s hl
    rw [h, List.nil_append, List.flatMap_cons] at hrow
    have hlength := congrArg List.length hrow
    rw [List.length_append, List.length_append] at hlength
    have hpos := List.length_pos_iff.2 (hne a)
    omega

theorem intercalate_map_inj (hne : ∀ a, f a ≠ [])
    (h : ∀ {a a' y y'}, (f a ++ s) ++ y = (f a' ++ s) ++ y' → a = a' ∧ y = y') {l l' : List α}
    (hl : s.intercalate (l.map f) = s.intercalate (l'.map f)) : l = l' := by
  have hitem : ∀ a, f a ++ s ≠ [] := fun a => List.append_ne_nil_of_left_ne_nil (hne a) s
  by_cases hnil : l = []
  · subst hnil
    by_cases hnil' : l' = []
    · exact hnil'.symm
    · exact absurd hl.symm (intercalate_map_ne_nil hne hnil')
  · have hnil' : l' ≠ [] := by
      rintro rfl
      exact intercalate_map_ne_nil hne hnil hl
    refine flatMap_inj_of_append_inj hitem h ?_
    rw [← intercalate_map_append f s hnil, hl, intercalate_map_append f s hnil']

end

theorem toList_values (b : Bytes) : (values b).toList =
    '[' :: (List.intercalate [',', ' '] (b.map fun c => Nat.toDigits 10 c.toNat) ++ [']']) := by
  have hitem : String.toList ∘ (fun c : UInt8 => toString c.toNat) =
      fun c => Nat.toDigits 10 c.toNat := by
    funext c
    rw [Function.comp_apply, Nat.toString_eq_ofList_toDigits, String.toList_ofList]
  rw [values, String.toList_append, String.toList_append, String.toList_intercalate, List.map_map,
    hitem]
  rfl

theorem values_inj {b b' : Bytes} (h : values b = values b') : b = b' := by
  have hcomma : ∀ n, ',' ∉ Nat.toDigits 10 n :=
    notMem_toDigits (by decide) (by decide) (by decide)
  have hl := congrArg String.toList h
  rw [toList_values, toList_values] at hl
  refine intercalate_map_inj (fun c => Nat.toDigits_ne_nil) ?_
    (List.append_cancel_right (List.cons.inj hl).2)
  intro c c' y y' he
  rw [List.append_assoc, List.append_assoc] at he
  obtain ⟨hd, hy⟩ := append_cons_inj_of_notMem (hcomma _) (hcomma _) he
  exact ⟨UInt8.toNat_inj.1 (toDigits_inj (by decide) (by decide) hd), (List.cons.inj hy).2⟩

theorem printable_values (b : Bytes) : Printable (values b) := by
  refine .append (.append (.literal rfl) (.intercalate (.literal rfl) ?_)) (.literal rfl)
  intro s hs
  obtain ⟨c, -, rfl⟩ := List.mem_map.1 hs
  exact .decimal c.toNat

/-! ## Bytes -/

/-- All of what is written for bytes shows, whether they are text or not. -/
theorem shows_of_mem_bytes (b : Bytes) : ∀ c ∈ (bytes b).toList, CodePoint.shows c = true := by
  unfold bytes
  rcases Utf8.decode b with _ | s
  · exact (printable_values b).shows
  · exact shows_of_mem_text

/-- Bytes that are quoted alike are the same. -/
theorem bytes_injective : Function.Injective bytes := by
  have hne (s : String) (b : Bytes) : text s ≠ values b := by
    intro h
    have hl := congrArg String.toList h
    rw [toList_values, text, String.toList_ofList] at hl
    exact absurd (List.cons.inj hl).1 (by decide)
  intro b b' h
  unfold bytes at h
  rcases hd : Utf8.decode b with _ | s <;> rcases hd' : Utf8.decode b' with _ | s' <;>
    rw [hd, hd'] at h
  · exact values_inj h
  · exact absurd h.symm (hne s' b)
  · exact absurd h (hne s b')
  · rw [Utf8.decode_eq_ok_iff.1 hd, Utf8.decode_eq_ok_iff.1 hd', text_inj h]

end Quoted

end Devicetree
