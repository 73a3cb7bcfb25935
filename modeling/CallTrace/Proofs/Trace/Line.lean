import CallTrace.Proofs.Fault
import CallTrace.Proofs.Hex.Digits
import CallTrace.Proofs.Number.Decimal
import CallTrace.Trace.Step

namespace CallTrace
open Attempt

namespace Text

/-- No line end in it, and no bracket as it opens a stack. -/
def IsPlain (t : Text) : Prop := ∀ c ∈ t, c ≠ .char '\n' ∧ c ≠ .char '['

instance (t : Text) : Decidable t.IsPlain := inferInstanceAs (Decidable (∀ c ∈ t, _))

theorem isPlain_append {s t : Text} : (s ++ t).IsPlain ↔ s.IsPlain ∧ t.IsPlain := List.forall_mem_append

theorem isPlain_flatten {ts : List Text} (h : ∀ t ∈ ts, t.IsPlain) : IsPlain ts.flatten := by
  intro c hc
  obtain ⟨t, ht, hct⟩ := List.mem_flatten.1 hc
  exact h t ht c hct

theorem isPlain_join {separator : Text} {ts : List Text} (hs : separator.IsPlain) (h : ∀ t ∈ ts, t.IsPlain) :
    (join separator ts).IsPlain := by
  unfold join
  induction ts with
  | nil => exact List.forall_mem_nil _
  | cons t ts ih =>
    obtain ⟨ht, hts⟩ := List.forall_mem_cons.1 h
    cases ts with
    | nil => rwa [List.intercalate_singleton]
    | cons u ts =>
      rw [List.intercalate_cons_cons]
      exact isPlain_append.2 ⟨isPlain_append.2 ⟨ht, hs⟩, ih hts⟩

theorem isPlain_iff {t : Text} : t.IsPlain ↔ .char '\n' ∉ t ∧ .char '[' ∉ t := by
  simp only [IsPlain, forall_and]
  exact and_congr List.forall_mem_ne' List.forall_mem_ne'

theorem IsPlain.lineEnd_not_mem {t : Text} (h : t.IsPlain) : .char '\n' ∉ t := (isPlain_iff.1 h).1

theorem IsPlain.bracket_not_mem {t : Text} (h : t.IsPlain) : .char '[' ∉ t := (isPlain_iff.1 h).2

theorem isPlain_of_allHex {t : Text} (h : Hex.AllHex t) : t.IsPlain :=
  isPlain_iff.2 ⟨Hex.not_mem_of_allHex h (by decide), Hex.not_mem_of_allHex h (by decide)⟩

theorem isPlain_ofInt (n : Int) : (ofInt n).IsPlain :=
  isPlain_iff.2 ⟨not_mem_ofInt (by decide) (by decide) n, not_mem_ofInt (by decide) (by decide) n⟩

/-- A mark that stands in a text once parts it in one way. -/
theorem eq_of_marked_once {s t u v : Text} {c : CodePoint} (ht : c ∉ t) (hv : c ∉ v) (h : s ++ c :: u = t ++ c :: v) :
    s = t ∧ u = v := by
  rcases List.append_eq_append_iff.1 h with ⟨more, rfl, htail⟩ | ⟨more, rfl, htail⟩
  · cases more with
    | nil => exact ⟨(List.append_nil s).symm, (List.cons.inj htail).2⟩
    | cons d more =>
      obtain rfl := (List.cons.inj htail).1
      exact absurd (List.mem_append_right s List.mem_cons_self) ht
  · cases more with
    | nil => exact ⟨List.append_nil t, (List.cons.inj htail).2.symm⟩
    | cons d more => exact absurd ((List.cons.inj htail).2 ▸ by simp) hv

end Text

namespace Hex

theorem isPlain_marked {t : Text} (h : t.IsPlain) : (marked t).IsPlain :=
  List.forall_mem_cons.2 ⟨by decide, List.forall_mem_cons.2 ⟨by decide, h⟩⟩

def quantityText (n : Int) : Text := marked (evenDigits n.toNat)

theorem isPlain_quantityText (n : Int) : (quantityText n).IsPlain :=
  isPlain_marked (Text.isPlain_of_allHex (allHex_evenDigits _))

theorem encodeQuantity_of_nonneg {n : Int} (h : 0 ≤ n) : encodeQuantity n = .ok (quantityText n) :=
  if_neg (Int.not_lt.2 h)

theorem mapM_encodeQuantity {items : List Int} (h : ∀ n ∈ items, 0 ≤ n) :
    items.mapM encodeQuantity = .ok (items.map quantityText) :=
  mapM_eq_ok.2 <| List.forall₂_map_right_iff.2 <| List.forall₂_same.2 fun n hn => encodeQuantity_of_nonneg (h n hn)

theorem isPlain_hexMarked (n : Int) : (Number.hexMarked n).IsPlain := by
  unfold Number.hexMarked
  split
  · exact Text.isPlain_append.2 ⟨by decide, Text.isPlain_of_allHex (allHex_hexPadded _ _)⟩
  · exact Text.isPlain_append.2 ⟨by decide, Text.isPlain_of_allHex (allHex_hexPadded _ _)⟩

theorem isPlain_abbreviated (least : Int) (bs : Octets) : (abbreviated least bs).IsPlain := by
  refine isPlain_marked (Text.isPlain_flatten fun t ht => ?_)
  obtain ⟨run, -, rfl⟩ := List.mem_map.1 ht
  have hpair : (pair run.1).IsPlain := Text.isPlain_of_allHex (allHex_hexPadded 2 _)
  have hcount : (evenDigits (run.2 - 1)).IsPlain := Text.isPlain_of_allHex (allHex_evenDigits _)
  unfold runText
  split
  · have hopen : (pair run.1 ++ runMark :: evenDigits (run.2 - 1)).IsPlain :=
      Text.isPlain_append.2 ⟨hpair, List.forall_mem_cons.2 ⟨by decide, hcount⟩⟩
    exact Text.isPlain_append.2 ⟨hopen, by decide⟩
  · exact Text.isPlain_of_allHex (allHex_pairs _)

end Hex

theorem Opcode.isPlain_mnemonic (op : Int) : (mnemonic op).IsPlain := by
  have hrows : ∀ row ∈ rows, ∀ name ∈ row.2, name.IsPlain := by decide +kernel
  unfold mnemonic
  cases hname : name? op with
  | none => exact Text.isPlain_append.2 ⟨by decide, Hex.isPlain_hexMarked op⟩
  | some name =>
    obtain ⟨row, hrow, hin⟩ := List.exists_of_findSome?_eq_some hname
    unfold inRow? at hin
    split at hin
    · cases hin
    · exact hrows row hrow name (List.mem_of_getElem? hin)

namespace Trace

/-- At any depth there is an indentation. -/
theorem exists_indent (depth : Nat) : ∃ dots, indent depth = .ok dots ∧ dots.IsPlain := by
  have hdots : ∀ n, (Text.concat (List.replicate n ". ")).IsPlain := fun n =>
    Text.isPlain_flatten fun t ht => by
      rw [List.eq_of_mem_replicate ht]
      decide
  have hdepth : ∀ n : Nat, ((Text.concat (List.replicate n ". ")) ++ "(" ++ Number.hexMarked depth ++ ") ").IsPlain :=
    fun n => by simp only [Text.isPlain_append, hdots, Hex.isPlain_hexMarked]; decide
  unfold indent
  rw [isCount_min]
  refine ⟨_, rfl, ?_⟩
  split
  · exact hdepth _
  · exact hdots _

end Trace

namespace Number

theorem decimal_eq_ok {n : Int} {t : Text} : decimal n = .ok t ↔ isLengthy n = false ∧ Text.ofInt n = t := by
  unfold decimal
  cases isLengthy n <;> simp

theorem not_failsBy_decimal (n : Int) : ¬ FailsBy (· ≠ .unwritableNumber) (decimal n) := by
  unfold decimal
  split
  · exact fun h => failsBy_error.1 h rfl
  · exact not_failsBy_ok _

end Number

namespace Step

def TellsHidden (n : Int) (line : Text) : Prop := ("[ (" ++ Text.ofInt n ++ " items) ... " : Text) <:+: line

def hiddenText (n : Int) : Text := if 0 < n then " (" ++ Text.ofInt n ++ " items) ... " else ""

theorem isPlain_hiddenText (n : Int) : (hiddenText n).IsPlain := by
  unfold hiddenText
  split
  · exact Text.isPlain_append.2 ⟨Text.isPlain_append.2 ⟨by decide, Text.isPlain_ofInt n⟩, by decide⟩
  · decide

/-- The bracket that opens the stack is the only one on a line, so the count behind it is the only one told. -/
theorem tellsHidden_iff {before after : Text} (hbefore : before.IsPlain) (hafter : after.IsPlain)
    (hspace : after.head? ≠ some (.char ' ')) {m n : Int} :
    TellsHidden n (before ++ "[" ++ hiddenText m ++ after) ↔ 0 < m ∧ n = m := by
  constructor
  · rintro ⟨u, v, h⟩
    have hmarked : u ++ .char '[' :: ((" (" ++ Text.ofInt n ++ " items) ... " : Text) ++ v) =
        before ++ .char '[' :: (hiddenText m ++ after) := by
      simpa [Text.ofString, Text.ofChars] using h
    have hrest := (Text.eq_of_marked_once hbefore.bracket_not_mem
      (Text.isPlain_append.2 ⟨isPlain_hiddenText m, hafter⟩).bracket_not_mem hmarked).2
    -- Behind the only bracket there is the count, or an item at once.
    by_cases hm : 0 < m
    · refine ⟨hm, ?_⟩
      rw [hiddenText, if_pos hm] at hrest
      have hcounts : Text.ofInt n ++ .char ' ' :: (("items) ... " : Text) ++ v) =
          Text.ofInt m ++ .char ' ' :: (("items) ... " : Text) ++ after) := by
        simpa [Text.ofString, Text.ofChars] using hrest
      have hblank : ∀ k : Int, .char ' ' ∉ Text.ofInt k := Text.not_mem_ofInt (by decide) (by decide)
      have hsplit := congrArg (Text.split (.char ' ')) hcounts
      unfold Text.split at hsplit
      rw [List.splitOn_append_cons_self_of_not_mem (hblank n), List.splitOn_append_cons_self_of_not_mem (hblank m)]
        at hsplit
      exact Text.ofInt_injective (List.cons.inj hsplit).1
    · rw [hiddenText, if_neg hm] at hrest
      exact absurd (congrArg List.head? hrest.symm) hspace
  · rintro ⟨hm, rfl⟩
    refine ⟨before, after, ?_⟩
    rw [hiddenText, if_pos hm]
    simp [Text.ofString, Text.ofChars]

def IsNatural (s : Step) : Prop := 0 ≤ s.gas ∧ ∀ n ∈ s.stack, 0 ≤ n

instance (s : Step) : Decidable s.IsNatural := inferInstanceAs (Decidable (_ ∧ _))

def hidden (s : Step) : Int := s.stackSize - s.stack.length

/-- What a line shows in decimal has few enough digits for that. -/
structure IsSpelled (s : Step) : Prop where
  pc : Number.isLengthy s.pc = false
  hidden : 0 < s.hidden → Number.isLengthy s.hidden = false
  storage : ∀ e ∈ s.storage.entries, Number.isLengthy e.1 = false ∧ Number.isLengthy e.2 = false

instance (s : Step) : Decidable s.IsSpelled :=
  decidable_of_iff
    (Number.isLengthy s.pc = false ∧ (0 < s.hidden → Number.isLengthy s.hidden = false) ∧
      ∀ e ∈ s.storage.entries, Number.isLengthy e.1 = false ∧ Number.isLengthy e.2 = false)
    ⟨fun ⟨hpc, hhidden, hstorage⟩ => ⟨hpc, hhidden, hstorage⟩, fun ⟨hpc, hhidden, hstorage⟩ => ⟨hpc, hhidden, hstorage⟩⟩

theorem stackText_eq_ok {size : Int} {items : List Text} {text : Text} :
    stackText size items = .ok text ↔
      (0 < size - items.length → Number.isLengthy (size - items.length) = false) ∧
        "[" ++ hiddenText (size - items.length) ++ (Text.join ", " items ++ "]") = text := by
  unfold stackText hiddenText
  by_cases h : size ≤ items.length
  · have hhidden : ¬ (items.length : Int) < size := by omega
    simp [h, hhidden, Text.ofString, Text.ofChars]
  · have hhidden : (items.length : Int) < size := by omega
    simp [h, hhidden, bind_eq_ok, Number.decimal_eq_ok, and_assoc, Text.ofString, Text.ofChars]

theorem not_failsBy_stackText (size : Int) (items : List Text) :
    ¬ FailsBy (· ≠ .unwritableNumber) (stackText size items) := by
  unfold stackText
  split
  · exact not_failsBy_ok _
  · exact not_failsBy_bind (Number.not_failsBy_decimal _) fun _ => not_failsBy_ok _

theorem storagePair_eq_ok {e : Int × Int} {t : Text} : storagePair e = .ok t ↔
    (Number.isLengthy e.1 = false ∧ Number.isLengthy e.2 = false) ∧
      Text.ofInt e.1 ++ ": " ++ Text.ofInt e.2 = t := by
  simp [storagePair, bind_eq_ok, Number.decimal_eq_ok, and_assoc]

theorem exists_storageText_eq_ok {storage : Table Int} : (∃ t, storageText storage = .ok t) ↔
    ∀ e ∈ storage.entries, Number.isLengthy e.1 = false ∧ Number.isLengthy e.2 = false := by
  have hpair : ∀ e, (∃ t, storagePair e = .ok t) ↔ Number.isLengthy e.1 = false ∧ Number.isLengthy e.2 = false :=
    fun e => by simp [storagePair_eq_ok]
  simp only [← hpair]
  rw [← exists_mapM_eq_ok]
  simp [storageText, bind_eq_ok]

theorem isPlain_of_storageText {storage : Table Int} {t : Text} (h : storageText storage = .ok t) : t.IsPlain := by
  obtain ⟨pairs, hpairs, h⟩ := bind_eq_ok.1 h
  obtain rfl := Except.ok.inj h
  have hplain : ∀ pair ∈ pairs, pair.IsPlain := by
    intro pair hmem
    obtain ⟨e, -, he⟩ := exists_of_mem_mapM hpairs hmem
    obtain ⟨-, rfl⟩ := storagePair_eq_ok.1 he
    exact Text.isPlain_append.2 ⟨Text.isPlain_append.2 ⟨Text.isPlain_ofInt _, by decide⟩, Text.isPlain_ofInt _⟩
  split
  · decide
  · refine Text.isPlain_append.2 ⟨by decide, Text.isPlain_append.2 ⟨Text.isPlain_append.2 ⟨by decide, ?_⟩, by decide⟩⟩
    exact Text.isPlain_join (by decide) hplain

theorem not_failsBy_storagePair (e : Int × Int) : ¬ FailsBy (· ≠ .unwritableNumber) (storagePair e) :=
  not_failsBy_bind (Number.not_failsBy_decimal _) fun _ =>
    not_failsBy_bind (Number.not_failsBy_decimal _) fun _ => not_failsBy_ok _

theorem not_failsBy_storageText (storage : Table Int) : ¬ FailsBy (· ≠ .unwritableNumber) (storageText storage) :=
  not_failsBy_bind (not_failsBy_mapM not_failsBy_storagePair) fun _ => not_failsBy_ok _

theorem isPlain_memoryText (memory : Octets) : (memoryText memory).IsPlain := by
  unfold memoryText
  split
  · decide
  · exact Text.isPlain_append.2 ⟨by decide, Hex.isPlain_abbreviated _ _⟩

def title (s : Step) : Text := Text.ofInt s.pc ++ ":" ++ s.mnemonic

/-- The parts of a line that can go wrong. -/
theorem line_eq {s : Step} (h : s.IsNatural) {depth : Nat} {dots : Text} (hdots : Trace.indent depth = .ok dots) :
    s.line depth = do
      let stack ← stackText s.stackSize (s.stack.map Hex.quantityText)
      let pc ← Number.decimal s.pc
      let storage ← storageText s.storage
      return dots ++ pc ++ ":" ++ s.mnemonic ++ ", gas=" ++ Hex.quantityText s.gas ++ ", stack=" ++
        stack ++ memoryText s.memory ++ storage := by
  unfold line
  rw [hdots, ok_bind, Hex.encodeQuantity_of_nonneg h.1, ok_bind, Hex.mapM_encodeQuantity h.2, ok_bind]

theorem exists_line_eq_ok {s : Step} (h : s.IsNatural) (depth : Nat) : (∃ t, s.line depth = .ok t) ↔ s.IsSpelled := by
  obtain ⟨dots, hdots, -⟩ := Trace.exists_indent depth
  simp only [line_eq h hdots, bind_eq_ok, stackText_eq_ok, Number.decimal_eq_ok, List.length_map]
  constructor
  · rintro ⟨t, stack, ⟨hhidden, -⟩, pc, ⟨hpc, -⟩, storage, hstorage, -⟩
    exact ⟨hpc, hhidden, exists_storageText_eq_ok.1 ⟨storage, hstorage⟩⟩
  · rintro ⟨hpc, hhidden, hentries⟩
    obtain ⟨storage, hstorage⟩ := exists_storageText_eq_ok.2 hentries
    exact ⟨_, _, ⟨hhidden, rfl⟩, _, ⟨hpc, rfl⟩, storage, hstorage, rfl⟩

theorem not_failsBy_line {s : Step} (h : s.IsNatural) (depth : Nat) :
    ¬ FailsBy (· ≠ .unwritableNumber) (s.line depth) := by
  obtain ⟨dots, hdots, -⟩ := Trace.exists_indent depth
  rw [line_eq h hdots]
  exact not_failsBy_bind (not_failsBy_stackText _ _) fun _ => not_failsBy_bind (Number.not_failsBy_decimal _) fun _ =>
    not_failsBy_bind (not_failsBy_storageText _) fun _ => not_failsBy_ok _

/-- What the shown items begin with is never a blank. -/
theorem head?_items (items : List Int) (more : Text) :
    (Text.join ", " (items.map Hex.quantityText) ++ "]" ++ more).head? ≠ some (.char ' ') := by
  cases items with
  | nil =>
    show some (CodePoint.char ']') ≠ _
    decide
  | cons n items =>
    cases items with
    | nil =>
      show some (CodePoint.char '0') ≠ _
      decide
    | cons m items =>
      show some (CodePoint.char '0') ≠ _
      decide

/-- The parts of a line. -/
theorem line_eq_ok {s : Step} (h : s.IsNatural) {depth : Nat} {t : Text} (ht : s.line depth = .ok t) :
    ∃ dots before after, Trace.indent depth = .ok dots ∧ (dots ++ s.title ++ before).IsPlain ∧ after.IsPlain ∧
      after.head? ≠ some (.char ' ') ∧ t = dots ++ s.title ++ before ++ "[" ++ hiddenText s.hidden ++ after := by
  obtain ⟨dots, hdots, hplain⟩ := Trace.exists_indent depth
  rw [line_eq h hdots] at ht
  simp only [bind_eq_ok, stackText_eq_ok, Number.decimal_eq_ok, List.length_map] at ht
  obtain ⟨_, ⟨-, rfl⟩, _, ⟨-, rfl⟩, storage, hstorage, ht⟩ := ht
  obtain rfl := Except.ok.inj ht
  refine ⟨dots, ", gas=" ++ Hex.quantityText s.gas ++ ", stack=",
    Text.join ", " (s.stack.map Hex.quantityText) ++ "]" ++ (memoryText s.memory ++ storage),
    hdots, ?_, ?_, head?_items _ _, ?_⟩
  · have htitle : s.title.IsPlain := by
      simp only [title, mnemonic, Text.isPlain_append, Text.isPlain_ofInt, Opcode.isPlain_mnemonic]
      decide
    simp only [Text.isPlain_append, hplain, htitle, Hex.isPlain_quantityText]
    decide
  · have hitems : (Text.join ", " (s.stack.map Hex.quantityText)).IsPlain :=
      Text.isPlain_join (by decide) fun t ht => by
        obtain ⟨n, -, rfl⟩ := List.mem_map.1 ht
        exact Hex.isPlain_quantityText n
    simp only [Text.isPlain_append, hitems, isPlain_memoryText, isPlain_of_storageText hstorage]
    decide
  · simp [title, hidden]

end Step

end CallTrace
