/-
The strings that a heap lists.

A heap of names may be any run of bytes. What it lists is said here from the bytes alone
(`EntryFrom`): each non-empty run without zeros that begins at index one, or behind a zero byte,
and has a zero byte behind it. A run at the end that nothing terminates is none.

One statement carries the file, `entryFrom_iff`: what is listed from a place on is the run that
starts there, if it is not empty, and what is listed from behind its terminator. It follows the
recursion of the list, so that membership, order and lookup are one induction each.

The list is also made turn by turn, by a pass that may be broken off (`Pass`). No turn changes what
the pass will have handed out in the end, and each moves on, so as many turns as there are bytes
are enough.
-/
import ManagedImage.Proofs.Metadata.Heaps
import ManagedImage.Proofs.Metadata.Streams

set_option autoImplicit false

namespace ManagedImage

/-! ## Terminated runs -/

namespace Region

variable {g : Region} {i start stop : Nat}

/-- Holding bytes is having them in the list of the region's bytes. -/
theorem holds_iff_prefix {bs : List UInt8} (hne : bs ≠ []) :
    g.Holds i bs ↔ bs <+: g.toList.drop i := by
  have hpos := List.length_pos_iff.mpr hne
  rw [List.prefix_iff_getElem]
  constructor
  · intro h
    have hfits := h.fits
    refine ⟨by rw [List.length_drop, length_toList]; omega, fun k hk => ?_⟩
    rw [List.getElem_drop, getElem_toList, ← h.byte_eq k hk, Nat.add_assoc]
  · rintro ⟨hlen, hbytes⟩
    rw [List.length_drop, length_toList] at hlen
    refine ⟨by omega, fun k hk => ?_⟩
    rw [hbytes k hk, List.getElem_drop, getElem_toList, Nat.add_assoc]

theorem getElem?_toList_eq_some {b : UInt8} :
    g.toList[i]? = some b ↔ i < g.len ∧ g.byte i = b := by
  rw [List.getElem?_eq_some_iff]
  constructor
  · rintro ⟨hi, rfl⟩
    have hin : i < g.len := by rwa [length_toList] at hi
    exact ⟨hin, by rw [byte, if_pos hin, getElem_toList]⟩
  · rintro ⟨hin, rfl⟩
    refine ⟨by rwa [length_toList], ?_⟩
    rw [byte, if_pos hin, getElem_toList]

/-- Before the first zero byte stands a run without zeros. -/
theorem holds_of_findZero? (h : g.findZero? start = some stop) :
    ∃ run : List UInt8, (∀ b ∈ run, b ≠ 0) ∧ g.Holds start (run ++ [0])
      ∧ start + run.length = stop := by
  obtain ⟨hle, hlt, hzero, hbefore⟩ := findZero?_ok h
  have hin : start + (stop - start + 1) ≤ g.len := by omega
  have hheld := holds_bytes hin
  rw [List.range_succ, List.map_append, List.map_singleton, Nat.add_sub_cancel' hle, hzero] at hheld
  refine ⟨_, fun b hb => ?_, hheld, by rw [List.length_map, List.length_range]; omega⟩
  obtain ⟨k, hk, rfl⟩ := List.mem_map.mp hb
  have hk := List.mem_range.mp hk
  exact hbefore (start + k) (by omega) (by omega)

/-- Where the search finds nothing, no zero byte follows. -/
theorem byte_ne_zero_of_findZero? (h : g.findZero? start = none) (hle : start ≤ i)
    (hin : i < g.len) : g.byte i ≠ 0 := by
  fun_induction g.findZero? start with
  | case1 start hstart hzero => cases h
  | case2 start hstart hzero ih =>
    rcases Nat.eq_or_lt_of_le hle with rfl | hlt
    · exact hzero
    · exact ih h hlt
  | case3 start hend => omega

end Region

namespace StringHeap

/-! ## What is listed -/

/-- A string of the heap at an index, for a list that starts at `first`: a run of bytes that are
not zero, at least one, which starts at `first` or behind a zero byte and has a zero byte behind
it. -/
structure EntryFrom (bytes : List UInt8) (first i : Nat) (s : Text) : Prop where
  /-- The index is not before the start of the list. -/
  le : first ≤ i
  /-- No string goes on at the index. -/
  begins : i = first ∨ bytes[i - 1]? = some 0
  /-- There is a first byte. -/
  ne_nil : s.toList ≠ []
  /-- The string does not go past a zero byte. -/
  nonzero : ∀ b ∈ s.toList, b ≠ 0
  /-- The string and its terminator stand at the index. -/
  run : s.toList ++ [0] <+: bytes.drop i

section Entries

variable {g : Region} {h : StringHeap} {first stop i : Nat} {s : Text}

theorem EntryFrom.holds (he : EntryFrom g.toList first i s) : g.Holds i (s.toList ++ [0]) :=
  (Region.holds_iff_prefix (List.append_ne_nil_of_right_ne_nil _ (List.cons_ne_nil _ _))).mpr he.run

/-- The terminator of a string is the first zero byte behind its index. -/
theorem EntryFrom.findZero?_eq (he : EntryFrom g.toList first i s) :
    g.findZero? i = some (i + s.toList.length) :=
  Region.findZero?_holds s.toList i he.nonzero he.holds

theorem EntryFrom.text_eq (he : EntryFrom g.toList first i s) :
    g.text i (i + s.toList.length) = s := by
  rw [he.holds.left.text, Text.ofList_toList]

/-- An index of a list that starts later is behind a zero byte also for an earlier start. -/
theorem EntryFrom.of_later (hzero : g.toList[stop]? = some 0) (hle : first ≤ stop)
    (he : EntryFrom g.toList (stop + 1) i s) : EntryFrom g.toList first i s := by
  refine ⟨by have := he.le; omega, .inr ?_, he.ne_nil, he.nonzero, he.run⟩
  rcases he.begins with rfl | hbefore
  · exact hzero
  · exact hbefore

/-- The text up to the terminator is a string. -/
theorem entryFrom_text (hstop : g.findZero? first = some stop) (hlt : first < stop) :
    EntryFrom g.toList first first (g.text first stop) := by
  obtain ⟨run, hnonzero, hheld, rfl⟩ := Region.holds_of_findZero? hstop
  have htext : (g.text first (first + run.length)).toList = run := by
    rw [hheld.left.text, Text.toList, Text.ofList, List.data_toByteArray]
  refine ⟨Nat.le_refl first, .inl rfl, ?_, ?_, ?_⟩ <;> rw [htext]
  · exact List.ne_nil_of_length_pos (by omega)
  · exact hnonzero
  · exact (Region.holds_iff_prefix
      (List.append_ne_nil_of_right_ne_nil _ (List.cons_ne_nil _ _))).mp hheld

/-- **What a list starts with.** From a place with a zero byte behind it, the strings are the run up
to that byte, unless it is empty, and those that are listed from behind the byte. -/
theorem entryFrom_iff (hstop : g.findZero? first = some stop) :
    EntryFrom g.toList first i s ↔
      (first < stop ∧ i = first ∧ s = g.text first stop) ∨ EntryFrom g.toList (stop + 1) i s := by
  obtain ⟨hle, hin, hzero, hbefore⟩ := Region.findZero?_ok hstop
  constructor
  · intro he
    rcases Nat.eq_or_lt_of_le he.le with rfl | hlt
    · -- Both the string and the search end at the first zero byte.
      have hpos := List.length_pos_iff.mpr he.ne_nil
      obtain rfl : first + s.toList.length = stop :=
        Option.some.inj (he.findZero?_eq.symm.trans hstop)
      exact .inl ⟨by omega, rfl, he.text_eq.symm⟩
    · -- A zero byte stands before the index, and none stands before `stop`.
      have hbehind := he.begins.resolve_left (by omega)
      obtain ⟨-, hprev⟩ := Region.getElem?_toList_eq_some.mp hbehind
      have hpast : ¬ i - 1 < stop := fun hprevious => hbefore (i - 1) (by omega) hprevious hprev
      exact .inr ⟨by omega, .inr hbehind, he.ne_nil, he.nonzero, he.run⟩
  · rintro (⟨hlt, rfl, rfl⟩ | he)
    · exact entryFrom_text hstop hlt
    · exact he.of_later (Region.getElem?_toList_eq_some.mpr ⟨hin, hzero⟩) hle

theorem not_entryFrom (hstop : g.findZero? first = none) : ¬ EntryFrom g.toList first i s := by
  intro he
  have hfits := he.holds.fits
  rw [List.length_append, List.length_singleton] at hfits
  have hend := he.holds.right.byte (k := 0) Nat.zero_lt_one
  exact Region.byte_ne_zero_of_findZero? hstop (by have := he.le; omega) (by omega) hend

theorem findZero?_eq_none_of_le (hend : g.len ≤ first) : g.findZero? first = none := by
  rw [Region.findZero?, if_neg (by omega)]

/-- **The list holds exactly the strings.** -/
theorem mem_entriesFrom_iff : (i, s) ∈ entriesFrom g first ↔ EntryFrom g.toList first i s := by
  fun_induction entriesFrom g first with
  | case1 first hin stop hstop hlt ih =>
    rw [entryFrom_iff hstop, List.mem_cons, ih, Prod.mk.injEq, and_iff_right hlt]
  | case2 first hin stop hstop hlt ih =>
    obtain rfl : first = stop := by have := (Region.findZero?_ok hstop).1; omega
    rw [entryFrom_iff hstop, ih]
    simp only [Nat.lt_irrefl, false_and, false_or]
  | case3 first hin hstop =>
    exact iff_of_false List.not_mem_nil (not_entryFrom hstop)
  | case4 first hend =>
    exact iff_of_false List.not_mem_nil (not_entryFrom (findZero?_eq_none_of_le (by omega)))

/-- The list goes up, so it names no index twice. -/
theorem pairwise_entriesFrom (g : Region) (first : Nat) :
    (entriesFrom g first).Pairwise fun a b => a.1 < b.1 := by
  fun_induction entriesFrom g first with
  | case1 first hin stop hstop hlt ih =>
    refine List.pairwise_cons.mpr ⟨fun e he => ?_, ih⟩
    have hle := (mem_entriesFrom_iff.mp he).le
    show first < e.1
    omega
  | case2 first hin stop hstop hlt ih => exact ih
  | case3 first hin hstop => exact .nil
  | case4 first hend => exact .nil

theorem get_of_entryFrom (he : EntryFrom h.region.toList first i s) : h.get i = .ok s :=
  get_holds he.nonzero he.holds

theorem EntryFrom.lt_len (he : EntryFrom g.toList first i s) : i < g.len := by
  have hfits := he.holds.fits
  rw [List.length_append, List.length_singleton] at hfits
  omega

end Entries

/-! ## The list turn by turn -/

/-- A pass over the heap: the place it has come to, what it has handed out so far, and whether it
has ended, behind the last string or broken off. -/
structure Pass where
  place : Nat
  given : List (Nat × Text)
  ended : Bool

/-- The pass before its first turn: the byte at index zero is no string. -/
def Pass.start : Pass := ⟨1, [], false⟩

/-- Of some strings, those that are handed to someone who says after each, knowing all of them so
far, whether to go on. -/
def handed (more : List (Nat × Text) → Bool) (given : List (Nat × Text)) :
    List (Nat × Text) → List (Nat × Text)
  | [] => given
  | e :: rest => if more (given ++ [e]) then handed more (given ++ [e]) rest else given ++ [e]

theorem handed_all (given es : List (Nat × Text)) :
    handed (fun _ => true) given es = given ++ es := by
  induction es generalizing given with
  | nil => rw [handed, List.append_nil]
  | cons e rest ih => rw [handed, if_pos rfl, ih, List.append_assoc, List.singleton_append]

namespace Pass

variable {g : Region} {more : List (Nat × Text) → Bool} {p : Pass}

/-- One turn: the run up to the next zero byte is handed out, unless it is empty, and the pass moves
behind that byte. -/
def turn (g : Region) (more : List (Nat × Text) → Bool) (p : Pass) : Pass :=
  if p.place < g.len then
    match g.findZero? p.place with
    | none => { p with ended := true }
    | some stop =>
      if p.place < stop then
        let given := p.given ++ [(p.place, g.text p.place stop)]
        if more given then { p with place := stop + 1, given } else { p with given, ended := true }
      else { p with place := stop + 1 }
  else { p with ended := true }

/-- At most `n` turns; a pass that has ended makes none. -/
def run (g : Region) (more : List (Nat × Text) → Bool) : Nat → Pass → Pass
  | 0, p => p
  | n + 1, p => if p.ended then p else run g more n (p.turn g more)

/-- What the pass will have handed out in the end, if it has not ended. -/
def outcome (g : Region) (more : List (Nat × Text) → Bool) (p : Pass) : List (Nat × Text) :=
  handed more p.given (entriesFrom g p.place)

/-- **What one turn does.** Either the pass has ended and has handed out all it will, or it has moved
on inside the heap and will still have handed out the same. -/
theorem turn_cases (g : Region) (more : List (Nat × Text) → Bool) (p : Pass) (hp : p.ended = false) :
    ((p.turn g more).ended = true ∧ (p.turn g more).given = p.outcome g more)
      ∨ ((p.turn g more).ended = false ∧ p.place < g.len ∧ p.place < (p.turn g more).place
        ∧ (p.turn g more).outcome g more = p.outcome g more) := by
  rw [turn, outcome, entriesFrom]
  by_cases hin : p.place < g.len
  · rw [if_pos hin, if_pos hin]
    cases hstop : g.findZero? p.place with
    | none => exact .inl ⟨rfl, rfl⟩
    | some stop =>
      have hle := (Region.findZero?_ok hstop).1
      dsimp only
      by_cases hlt : p.place < stop
      · rw [if_pos hlt, dif_pos hlt, handed]
        by_cases hmore : more (p.given ++ [(p.place, g.text p.place stop)]) = true
        · rw [if_pos hmore, if_pos hmore]
          exact .inr ⟨hp, hin, Nat.lt_succ_of_le hle, rfl⟩
        · rw [if_neg hmore, if_neg hmore]
          exact .inl ⟨rfl, rfl⟩
      · obtain rfl : p.place = stop := by omega
        rw [if_neg hlt, dif_neg hlt]
        exact .inr ⟨hp, hin, Nat.lt_succ_self _, rfl⟩
  · rw [if_neg hin, if_neg hin]
    exact .inl ⟨rfl, rfl⟩

theorem run_of_ended (hp : p.ended = true) (n : Nat) : p.run g more n = p := by
  cases n with
  | zero => rfl
  | succ n => rw [run, if_pos hp]

/-- **A pass ends**, with what it was going to hand out from its start: each turn but the last takes
it past a byte. -/
theorem run_ended (n : Nat) : ∀ p : Pass, p.ended = false → g.len - p.place < n →
    (p.run g more n).ended = true ∧ (p.run g more n).given = p.outcome g more := by
  induction n with
  | zero => intro p _ hn; omega
  | succ n ih =>
    intro p hp hn
    rw [run, if_neg (by rw [hp]; exact Bool.false_ne_true)]
    rcases turn_cases g more p hp with ⟨hended, hgiven⟩ | ⟨hgoes, hin, hmoved, houtcome⟩
    · rw [run_of_ended hended]
      exact ⟨hended, hgiven⟩
    · rw [← houtcome]
      exact ih _ hgoes (by omega)

end Pass

/-! ## Every heap -/

/-- **A heap lists exactly its strings.** Whatever its bytes are, the list holds the pair of an
index and a text if and only if the text is a non-empty run without zeros at that index, which is
one or behind a zero byte, with a zero byte behind it. The indexes go up, each is read back, and
those of a parsed image fit their 32 bits. A pass has ended after one turn more than there are
bytes, and hands out the list, or its beginning if it is broken off. -/
theorem entries_exact (h : StringHeap) :
    (∀ i s, (i, s) ∈ h.entries ↔ EntryFrom h.region.toList 1 i s)
      ∧ h.entries.Pairwise (fun a b => a.1 < b.1)
      ∧ (∀ i s, (i, s) ∈ h.entries → h.get i = .ok s)
      ∧ (∀ more n, h.region.len < n → (Pass.start.run h.region more n).ended = true
        ∧ (Pass.start.run h.region more n).given = handed more [] h.entries)
      ∧ (∀ n, h.region.len < n →
        (Pass.start.run h.region (fun _ => true) n).given = h.entries)
      ∧ ∀ data img, Image.parse data = .ok img → img.strings = h →
        ∀ i s, (i, s) ∈ h.entries → i < 0x100000000 := by
  have hends : ∀ more n, h.region.len < n → (Pass.start.run h.region more n).ended = true
      ∧ (Pass.start.run h.region more n).given = handed more [] h.entries :=
    fun more n hn => Pass.run_ended n Pass.start rfl (by show h.region.len - 1 < n; omega)
  refine ⟨fun i s => mem_entriesFrom_iff, pairwise_entriesFrom h.region 1,
    fun i s hmem => get_of_entryFrom (mem_entriesFrom_iff.mp hmem), hends, fun n hn => ?_, ?_⟩
  · rw [(hends _ n hn).2, handed_all, List.nil_append]
  · rintro data img hparse rfl i s hmem
    have hlt := (mem_entriesFrom_iff.mp hmem).lt_len
    have hle := (Image.parse_follows hparse).1.strings.len_le
    have hroot := Image.root_len_lt hparse
    exact Nat.lt_of_lt_of_le hlt (Nat.le_of_lt (Nat.lt_of_le_of_lt hle hroot))

/-- A heap with a string, two zero bytes, a string, and a last byte that nothing terminates. -/
def tornHeap : StringHeap := ⟨Region.whole [0, 0x41, 0x62, 0, 0, 0x63, 0, 0x64].toByteArray, 2⟩

theorem entries_exact_tornHeap :
    (1, Text.ofList [0x41, 0x62]) ∈ tornHeap.entries
      ∧ tornHeap.get 1 = .ok (Text.ofList [0x41, 0x62])
      ∧ (5, Text.ofList [0x63]) ∈ tornHeap.entries ∧ (∀ s, (2, s) ∉ tornHeap.entries)
      ∧ (∀ s, (7, s) ∉ tornHeap.entries)
      ∧ (Pass.start.run tornHeap.region (fun _ => true) 9).given = tornHeap.entries := by
  obtain ⟨hexact, -, hget, -, hgiven, -⟩ := entries_exact tornHeap
  have hbytes : tornHeap.region.toList = [0, 0x41, 0x62, 0, 0, 0x63, 0, 0x64] := by decide +kernel
  simp only [hbytes] at hexact
  have hfirst : (1, Text.ofList [0x41, 0x62]) ∈ tornHeap.entries :=
    (hexact _ _).mpr ⟨by decide, .inl rfl, by decide, by decide +kernel, [0, 0x63, 0, 0x64], rfl⟩
  have hsecond : (5, Text.ofList [0x63]) ∈ tornHeap.entries :=
    (hexact _ _).mpr ⟨by decide, .inr rfl, by decide, by decide +kernel, [0x64], rfl⟩
  refine ⟨hfirst, hget _ _ hfirst, hsecond, fun s hs => ?_, fun s hs => ?_, hgiven 9 (by decide)⟩
  · -- A string goes on at index 2.
    rcases ((hexact _ _).mp hs).begins with hone | hzero
    · exact absurd hone (by decide)
    · exact absurd hzero (by decide)
  · -- The last byte would have to be the terminator.
    have hrun := ((hexact _ _).mp hs).run
    have hsome := List.length_pos_iff.mpr ((hexact _ _).mp hs).ne_nil
    have hlen := hrun.length_le
    rw [List.length_append, List.length_singleton] at hlen
    exact absurd hlen (by simp only [List.length_drop, List.length_cons, List.length_nil]; omega)

end StringHeap

end ManagedImage
