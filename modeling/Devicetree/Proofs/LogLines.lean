import Devicetree.Boot
import Devicetree.Log

/-!
# A record is a line

Everything that is put into a record is printable ASCII: the constant texts, the numerals and, since
they are escaped, the names, whatever bytes these are (`Notice.printable_message`). So no record has
a newline of its own, and the text that a logger writes splits into the lines of its records: one
for each notice up to its level and no other (`Logger.WritesLines`). A line also says which record
it is (`Notice.record_eq_of_line_eq`): two runs that write the same text have logged the same.
-/

namespace Devicetree

/-- Whether a text is made of the characters from the space to the tilde. -/
def Printable (s : String) : Prop :=
  ∀ c ∈ s.toList, Escaped.IsPrintable c

namespace Printable

theorem append {s t : String} (hs : Printable s) (ht : Printable t) : Printable (s ++ t) := by
  intro c hc
  rw [String.toList_append, List.mem_append] at hc
  exact hc.elim (hs c) (ht c)

theorem ofList {l : List Char} (h : ∀ c ∈ l, Escaped.IsPrintable c) :
    Printable (String.ofList l) := by
  rwa [Printable, String.toList_ofList]

/-- A literal is the list of its characters, which are looked at one by one. -/
theorem literal {l : List Char} (h : l.all (fun c => decide (Escaped.IsPrintable c)) = true) :
    Printable (String.ofList l) :=
  ofList fun c hc => of_decide_eq_true (List.all_eq_true.1 h c hc)

theorem newline_notMem {s : String} (h : Printable s) : '\n' ∉ s.toList :=
  fun hm => absurd (h _ hm) (by decide)

theorem name (b : Bytes) : Printable (Escaped.name b) :=
  Escaped.name_printable b

end Printable

/-! ## Numerals -/

theorem toDigits_subset_lower {base : Nat} (hb : 1 < base) (hle : base ≤ 16) (n : Nat) :
    Nat.toDigits base n ⊆ Hex.lower := by
  have hdigit {n : Nat} (hn : n < base) : [Nat.digitChar n] ⊆ Hex.lower :=
    List.cons_subset.2 ⟨List.mem_of_getElem? (Hex.lower_getElem? (Nat.lt_of_lt_of_le hn hle)),
      List.nil_subset _⟩
  induction n using Nat.strongRecOn with
  | _ n ih =>
    by_cases hn : n < base
    · rw [Nat.toDigits_of_lt_base hn]
      exact hdigit hn
    · have hn : base ≤ n := Nat.le_of_not_lt hn
      rw [Nat.toDigits_of_base_le hb hn]
      exact List.append_subset.2 ⟨ih (n / base) (Nat.div_lt_self (by omega) hb),
        hdigit (Nat.mod_lt n (by omega))⟩

theorem toDigits_printable {base : Nat} (hb : 1 < base) (hle : base ≤ 16) (n : Nat) :
    ∀ c ∈ Nat.toDigits base n, Escaped.IsPrintable c :=
  fun c hc => Escaped.lower_printable c (toDigits_subset_lower hb hle n hc)

namespace Printable

theorem decimal (n : Nat) : Printable (toString n) := by
  rw [Nat.toString_eq_ofList_toDigits]
  exact ofList (toDigits_printable (by decide) (by decide) n)

theorem numeral (n : Nat) : Printable (Hex.numeral n) :=
  append (literal rfl) (ofList (toDigits_printable (by decide) (by decide) n))

theorem word (w : UInt32) : Printable (Hex.word w) := by
  refine append (literal rfl) (ofList ?_)
  intro c hc
  rcases List.mem_append.1 hc with hc | hc
  · rw [List.eq_of_mem_replicate hc]
    decide
  · exact toDigits_printable (by decide) (by decide) w.toNat c hc

theorem indented (depth : Nat) {s : String} (h : Printable s) :
    Printable (Notice.indented depth s) := by
  refine append (ofList ?_) h
  intro c hc
  rw [List.eq_of_mem_replicate hc]
  decide

end Printable

/-! ## Messages -/

theorem Utf8.Fault.printable_message (f : Fault) : Printable f.message := by
  unfold message
  split
  · exact .append (.append (.append (.literal rfl) (.decimal _)) (.literal rfl)) (.decimal _)
  · exact .append (.literal rfl) (.decimal _)

theorem BadParameter.printable_message (what : BadParameter) : Printable what.message := by
  cases what <;> exact .literal rfl

theorem Defect.printable_message (d : Defect) : Printable d.message := by
  cases d <;> exact .literal rfl

theorem Unsupported.printable_message (reason : Unsupported) : Printable reason.message := by
  cases reason <;> exact .literal rfl

theorem Error.printable_message (e : Error) : Printable e.message := by
  cases e with
  | invalidParameter what => exact .append (.literal rfl) what.printable_message
  | badMagic found => exact .append (.append (.literal rfl) (.word found)) (.literal rfl)
  | malformed offset defect =>
    exact .append (.append (.append (.literal rfl) (.numeral offset)) (.literal rfl))
      defect.printable_message
  | outOfRegion offset length =>
    exact .append (.append (.append (.append (.literal rfl) (.decimal length)) (.literal rfl))
      (.numeral offset)) (.literal rfl)
  | unsupported reason => exact .append (.literal rfl) reason.printable_message
  | notText fault => exact .append (.literal rfl) fault.printable_message

theorem Level.printable_name (l : Level) : Printable l.name := by
  cases l <;> exact .literal rfl

namespace Notice

theorem printable_sized (name : Bytes) (size : Nat) : Printable (sized name size) :=
  .append (.append (.append (.append (.literal rfl) (.name name)) (.literal rfl)) (.decimal size))
    (.literal rfl)

theorem printable_message (n : Notice) : Printable n.message := by
  cases n with
  | nodeOpened depth name => exact .indented depth (.append (.literal rfl) (.name name))
  | nodeClosed depth => exact .indented depth (.literal rfl)
  | propertyPassed depth name size => exact .indented depth (printable_sized name size)
  | treeEnded => exact .literal rfl
  | nodeFound name body =>
    exact .append (.append (.append (.literal rfl) (.name name)) (.literal rfl)) (.numeral body)
  | nodeEntered name => exact .append (.literal rfl) (.name name)
  | propertyFound name size => exact .append (.literal rfl) (printable_sized name size)
  | nothingFound segment => exact .append (.literal rfl) (.name segment)
  | cellCounts addressCells sizeCells =>
    exact .append (.append (.append (.literal rfl) (.decimal _)) (.literal rfl)) (.decimal _)
  | blobOpened totalSize version lastCompatible =>
    have hsize : Printable ("device tree: " ++ toString totalSize.toNat ++ " bytes, version ") :=
      .append (.append (.literal rfl) (.decimal _)) (.literal rfl)
    exact .append (.append (.append (.append hsize (.decimal _)) (.literal rfl)) (.decimal _))
      (.literal rfl)
  | memoryFound start stop =>
    exact .append (.append (.append (.literal rfl) (.numeral start)) (.literal rfl)) (.numeral stop)
  | halted e => exact .append (.literal rfl) e.printable_message

/-- The parts of the program that tell of what they do. -/
def targets : List String :=
  ["fdt_lookup::base::walk", "fdt_lookup::base::lookup", "fdt_lookup::boot"]

theorem target_mem_targets (n : Notice) : n.target ∈ targets := by
  cases n <;> simp [target, targets]

theorem printable_target (n : Notice) : Printable n.target := by
  cases n <;> exact .literal rfl

theorem printable_line (n : Notice) : Printable n.record.line :=
  .append (.append (.append (.append n.level.printable_name (.literal rfl)) n.printable_target)
    (.literal rfl)) n.printable_message

end Notice

/-! ## Lines -/

theorem append_cons_inj_of_notMem {α : Type} {a : α} : ∀ {x x' y y' : List α}, a ∉ x → a ∉ x' →
    x ++ a :: y = x' ++ a :: y' → x = x' ∧ y = y'
  | [], [], _, _, _, _, h => ⟨rfl, (List.cons.inj h).2⟩
  | [], _ :: _, _, _, _, hx', h => absurd (List.mem_cons.2 (.inl (List.cons.inj h).1)) hx'
  | _ :: _, [], _, _, hx, _, h => absurd (List.mem_cons.2 (.inl (List.cons.inj h).1.symm)) hx
  | c :: x, c' :: x', _, _, hx, hx', h => by
    obtain ⟨rfl, htail⟩ := List.cons.inj h
    rw [List.mem_cons, not_or] at hx hx'
    obtain ⟨rfl, rfl⟩ := append_cons_inj_of_notMem hx.2 hx'.2 htail
    exact ⟨rfl, rfl⟩

theorem Level.eq_of_name_eq {l l' : Level} (h : l.name = l'.name) : l = l' := by
  revert h
  cases l <;> cases l' <;> decide

/-- A line begins with its level up to the first space and goes on with its target up to the first
bracket that closes. -/
theorem Notice.record_eq_of_line_eq {n n' : Notice} (h : n.record.line = n'.record.line) :
    n.record = n'.record := by
  have hline (r : Record) : r.line.toList =
      r.level.name.toList ++ ' ' :: '(' :: (r.target.toList ++ ')' :: (" :: ".toList ++
        r.message.toList)) := by
    simp [Record.line]
  have hspace (l : Level) : ' ' ∉ l.name.toList := by cases l <;> decide
  have hbracket (n : Notice) : ')' ∉ n.target.toList :=
    (by decide : ∀ t ∈ targets, ')' ∉ t.toList) _ n.target_mem_targets
  have hl := congrArg String.toList h
  rw [hline, hline] at hl
  obtain ⟨hlevel, hl⟩ := append_cons_inj_of_notMem (hspace _) (hspace _) hl
  obtain ⟨htarget, hl⟩ := append_cons_inj_of_notMem (hbracket n) (hbracket n') (List.cons.inj hl).2
  have hmessage := List.append_cancel_left hl
  rw [Notice.record, Notice.record, Record.mk.injEq]
  exact ⟨Level.eq_of_name_eq (String.toList_inj.1 hlevel), String.toList_inj.1 htarget,
    String.toList_inj.1 hmessage⟩

/-- The lines of a text: what stands between its newlines. -/
def linesOf (s : String) : List String :=
  (s.split '\n').toList.map fun line => line.copy

theorem linesOf_intercalate {lines : List String} (h : ∀ s ∈ lines, '\n' ∉ s.toList)
    (hne : lines ≠ []) : linesOf ("\n".intercalate lines) = lines := by
  have hs := String.toList_split_intercalate h
  rwa [if_neg hne] at hs

theorem join_newline : ∀ lines : List String,
    String.join (lines.map fun line => line ++ "\n") = "\n".intercalate (lines ++ [""])
  | [] => rfl
  | line :: lines => by
    rw [List.cons_append, String.intercalate_cons_of_ne_nil (by simp), List.map_cons,
      String.join_cons, join_newline lines]

theorem map_record_eq_of_map_line_eq : ∀ {ns ns' : List Notice},
    (ns.map Notice.record).map Record.line = (ns'.map Notice.record).map Record.line →
      ns.map Notice.record = ns'.map Notice.record
  | [], [], _ => rfl
  | [], _ :: _, h => by cases h
  | _ :: _, [], h => by cases h
  | n :: ns, n' :: ns', h => by
    obtain ⟨hn, hns⟩ := List.cons.inj h
    rw [List.map_cons, List.map_cons, Notice.record_eq_of_line_eq hn,
      map_record_eq_of_map_line_eq hns]

namespace Logger

theorem isEnabled_iff {l : Logger} {level : Level} :
    l.isEnabled level = true ↔ level.rank ≤ l.maxLevel.rank :=
  decide_eq_true_iff

/-- To pick notices by their level is to pick their records. -/
theorem records_eq_filter (l : Logger) (ns : List Notice) :
    l.records ns = (ns.map Notice.record).filter fun r => l.isEnabled r.level := by
  rw [List.filter_map]
  rfl

theorem isEnabled_of_mem_records {l : Logger} {ns : List Notice} {r : Record}
    (h : r ∈ l.records ns) : l.isEnabled r.level = true := by
  rw [records_eq_filter] at h
  exact (List.mem_filter.1 h).2

theorem text_foldl_log (l : Logger) : ∀ (rs : List Record) (k : Sink),
    (∀ r ∈ rs, l.isEnabled r.level = true) →
      (rs.foldl l.log k).text = k.text ++ String.join (rs.map fun r => r.line ++ "\n")
  | [], k, _ => by simp
  | r :: rs, k, h => by
    have hr := h r List.mem_cons_self
    rw [List.foldl_cons, text_foldl_log l rs _ fun r hm => h r (List.mem_cons_of_mem _ hm), log,
      if_pos hr]
    simp [Sink.putText, String.append_assoc]

/-- Whether a logger writes notices as lines, one for each record up to its level, from which the
records can be told. -/
structure WritesLines (l : Logger) (ns : List Notice) : Prop where
  /-- Each notice up to the level is told. -/
  told : ∀ n ∈ ns, n.level.rank ≤ l.maxLevel.rank → n.record ∈ l.records ns
  /-- Nothing above the level is told. -/
  level : ∀ r ∈ l.records ns, r.level.rank ≤ l.maxLevel.rank
  often : ∀ r ∈ l.records ns, (l.records ns).count r = (ns.map Notice.record).count r
  order : (l.records ns).Sublist (ns.map Notice.record)
  printable : ∀ r ∈ l.records ns, Printable r.line
  text : (l.write .empty ns).text = String.join ((l.records ns).map fun r => r.line ++ "\n")
  /-- Behind the newline that ends the last line nothing is left. -/
  lines : linesOf (l.write .empty ns).text = (l.records ns).map Record.line ++ [""]
  records : ∀ ns', (l.write .empty ns').text = (l.write .empty ns).text →
    l.records ns' = l.records ns

theorem printable_of_mem_records {l : Logger} {ns : List Notice} {r : Record}
    (h : r ∈ l.records ns) : Printable r.line := by
  obtain ⟨n, -, rfl⟩ := List.mem_map.1 h
  exact n.printable_line

theorem text_write (l : Logger) (ns : List Notice) :
    (l.write .empty ns).text = String.join ((l.records ns).map fun r => r.line ++ "\n") := by
  rw [write, text_foldl_log l _ _ fun r hr => isEnabled_of_mem_records hr]
  exact String.empty_append

theorem linesOf_write (l : Logger) (ns : List Notice) :
    linesOf (l.write .empty ns).text = (l.records ns).map Record.line ++ [""] := by
  have hj := join_newline ((l.records ns).map Record.line)
  rw [List.map_map] at hj
  rw [text_write]
  refine (congrArg linesOf hj).trans (linesOf_intercalate ?_ (by simp))
  intro line hline
  rcases List.mem_append.1 hline with hline | hline
  · obtain ⟨r, hr, rfl⟩ := List.mem_map.1 hline
    exact (printable_of_mem_records hr).newline_notMem
  · rw [List.mem_singleton.1 hline]
    exact List.not_mem_nil

theorem writesLines (l : Logger) (ns : List Notice) : l.WritesLines ns where
  told n hn hlevel :=
    List.mem_map.2 ⟨n, List.mem_filter.2 ⟨hn, isEnabled_iff.2 hlevel⟩, rfl⟩
  level _ hr := isEnabled_iff.1 (isEnabled_of_mem_records hr)
  often r hr := by
    rw [records_eq_filter]
    exact List.count_filter (isEnabled_of_mem_records hr)
  order := by
    rw [records_eq_filter]
    exact List.filter_sublist
  printable _ hr := printable_of_mem_records hr
  text := l.text_write ns
  lines := l.linesOf_write ns
  records ns' h := by
    have hl := congrArg linesOf h
    rw [linesOf_write, linesOf_write] at hl
    exact map_record_eq_of_map_line_eq (List.append_cancel_right hl)

/-- At every level, what a walk, a lookup, a discovery or a boot logs is written as lines of
printable characters, one for each record up to the level and in their order, whatever the blob and
the path are.
The text splits into these lines and tells which records were logged. -/
theorem writesLines_of_run (l : Logger) (b : Blob) (c : Cursor) (depth : Nat) (path : Path)
    (mode : MatchMode) (bytes : Bytes) (memory : Option Bytes) :
    l.WritesLines (b.walk c depth).notices ∧ l.WritesLines (b.lookup c path mode).notices ∧
      l.WritesLines (Config.discover b).notices ∧ l.WritesLines (Boot.fromBytes bytes).notices ∧
      l.WritesLines (Boot.fromMemory memory).notices :=
  ⟨l.writesLines _, l.writesLines _, l.writesLines _, l.writesLines _, l.writesLines _⟩

/-- A node whose name holds a newline and an escape character. -/
example : linesOf (write ⟨.debug⟩ .empty [.nodeEntered [0x0a, 0x1b, 0x61]]).text =
    ["DEBUG (fdt_lookup::base::lookup) :: lookup: descending into \\x0a\\x1ba", ""] :=
  linesOf_write _ _

end Logger

end Devicetree
