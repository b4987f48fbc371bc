/-
Records read back field by field.

A record is written in the order of its keys and read by their names. With the keys told
apart however they are spelled, that order does not matter: a field is what was written under
its key (`KeysIn.field_eq`), and a field that was left out reads as its default, which is what
it said. What remains is that each kind of value is read back as it was. A text is, if it is
valid; a list is, if all its members are.
-/
import ManagedImage.Report.Reading
import ManagedImage.Proofs.Metadata.Heaps
import ManagedImage.Proofs.Report.Documents
import Mathlib.Data.List.Nodup

set_option autoImplicit false

namespace ManagedImage

/-! ## Texts -/

theorem Text.toList_inj {t u : Text} (h : t.toList = u.toList) : t = u := by
  rw [← Text.ofList_toList t, h, Text.ofList_toList]

theorem Text.isValid_ofString (s : String) : (Text.ofString s).isValid = true :=
  ByteArray.validateUTF8_eq_true_iff.mpr s.isValidUTF8

theorem Text.ofString_inj {s u : String} (h : Text.ofString s = Text.ofString u) : s = u :=
  String.toByteArray_inj.mp (congrArg Text.bytes h)

namespace Report.Cbor

open Item Document

/-! ## Members that are taken or refused -/

theorem plain?_of_untagged {i : Item} (h : ∀ n content, i ≠ .tag n content) : i.plain? = some i := by
  cases i with
  | tag n content => exact absurd rfl (h n content)
  | _ => rfl

/-- A conversion of every member, some of which may be refused. -/
theorem mapM_map_ite {α β γ : Type} {f : β → Option γ} {g : α → β} {value : α → γ} {ok : α → Bool}
    (xs : List α) (h : ∀ x ∈ xs, f (g x) = if ok x then some (value x) else none) :
    (xs.map g).mapM f = if xs.all ok then some (xs.map value) else none := by
  induction xs with
  | nil => rfl
  | cons x xs ih =>
    obtain ⟨hx, hxs⟩ := List.forall_mem_cons.mp h
    rw [List.map_cons, List.mapM_cons, hx, ih hxs, List.all_cons]
    cases ok x with
    | false => rfl
    | true => cases xs.all ok <;> rfl

/-- What follows a member that may be refused. -/
theorem bind_ite {α β : Type} (c : Bool) (x : α) (f : α → Option β) :
    (if c then some x else none).bind f = if c then f x else none := by
  cases c <;> rfl

/-- Two members that may be refused. -/
theorem ite_ite_none {α : Type} (c d : Bool) (x : Option α) :
    (if c then (if d then x else none) else none) = if c && d then x else none := by
  cases c <;> rfl

/-! ## Fields by their keys -/

/-- A key without capital letters. -/
def Plain (key : String) : Prop := (Text.ofString key).toList.map lowerByte = (Text.ofString key).toList

instance (key : String) : Decidable (Plain key) := inferInstanceAs (Decidable (_ = _))

theorem names_ofString {key name : String} (h : Plain key) :
    names (some (Text.ofString key)) name = decide (key = name) := by
  have hiff : (Text.ofString key).toList.map lowerByte = (Text.ofString name).toList ↔ key = name := by
    rw [h]
    exact ⟨fun hlist => Text.ofString_inj (Text.toList_inj hlist), fun hname => by rw [hname]⟩
  exact decide_eq_decide.mpr hiff

/-- The entries of a record as they are read. -/
def entriesOf (fields : List (String × Document)) : List (Option Text × Item) :=
  (inKeyOrder fields).map fun f => (some (Text.ofString f.1), item f.2)

theorem entries?_record (fields : List (String × Document)) :
    entries? (item (.record fields)) = some (entriesOf fields) := by
  have hentry : ∀ f ∈ inKeyOrder fields,
      entry? (.text [(Text.ofString f.1).toList], item f.2)
        = if true then some (some (Text.ofString f.1), item f.2) else none := by
    intro f _
    simp only [key?, entry?, textOf?, List.all_cons, List.all_nil, Text.ofList_toList,
      Text.isValid_ofString, Bool.and_self, List.flatten_cons, List.flatten_nil,
      List.append_nil, if_true, Option.map_some]
  rw [item_record, entries?, plain?_of_untagged fun _ _ => Item.noConfusion]
  simp only [Option.bind_eq_bind, Option.bind_some]
  rw [mapM_map_ite _ hentry, List.all_eq_true.mpr fun _ _ => rfl]
  rfl

/-- Keys that are told apart however they are spelled, and that are few and short. -/
structure Keys (keys : List String) : Prop where
  nodup : keys.Nodup
  plain : ∀ key ∈ keys, Plain key
  short : ∀ key ∈ keys, (Text.ofString key).size < 0x10000000000000000
  few : keys.length ≤ maxMembers

/-- The keys of the fields are among these, in order. -/
def KeysIn (fields : List (String × Document)) (keys : List String) : Prop :=
  (fields.map Prod.fst).Sublist keys

section Fields

variable {fields : List (String × Document)} {keys : List String}

theorem KeysIn.mem (h : KeysIn fields keys) {f : String × Document} (hf : f ∈ fields) :
    f.1 ∈ keys := h.subset (List.mem_map_of_mem hf)

theorem KeysIn.few (h : KeysIn fields keys) (hkeys : Keys keys) : fields.length ≤ maxMembers := by
  have hlen := h.length_le
  rw [List.length_map] at hlen
  exact Nat.le_trans hlen hkeys.few

/-- **A field is found by its key**, and what has no field has its default. -/
theorem KeysIn.field_eq (h : KeysIn fields keys) (hkeys : Keys keys) {α : Type} (name : String)
    (convert : Item → Option α) (fallback : α) :
    field (entriesOf fields) name convert fallback
      = (fields.lookup name).elim (some fallback) fun d => convert (item d) := by
  have hmem : ∀ f, f ∈ inKeyOrder fields ↔ f ∈ fields := fun f => (perm_inKeyOrder fields).mem_iff
  have hplain : ∀ f ∈ fields, Plain f.1 := fun f hf => hkeys.plain f.1 (h.mem hf)
  rw [field]
  cases hfound : fields.lookup name with
  | none =>
    have hnone : (entriesOf fields).find? (fun e => names e.1 name) = none := by
      rw [List.find?_eq_none]
      intro e he
      obtain ⟨f, hf, rfl⟩ := List.mem_map.mp he
      have hne := List.lookup_eq_none_iff.mp hfound f ((hmem f).mp hf)
      rw [names_ofString (hplain f ((hmem f).mp hf)), decide_eq_true_eq]
      exact fun heq => by simp [heq] at hne
    rw [hnone]
    rfl
  | some d =>
    have hd : (name, d) ∈ fields := by
      obtain ⟨before, after, rfl, -⟩ := List.lookup_eq_some_iff.mp hfound
      exact List.mem_append_right _ List.mem_cons_self
    obtain ⟨e, he⟩ : ∃ e, (entriesOf fields).find? (fun e => names e.1 name) = some e := by
      rw [← Option.isSome_iff_exists, List.find?_isSome]
      refine ⟨_, List.mem_map_of_mem ((hmem _).mpr hd), ?_⟩
      exact (names_ofString (hplain _ hd)).trans (decide_eq_true rfl)
    obtain ⟨f, hf, rfl⟩ := List.mem_map.mp (List.mem_of_find?_eq_some he)
    have hname : f.1 = name := by
      have hnames := List.find?_some he
      rwa [names_ofString (hplain f ((hmem f).mp hf)), decide_eq_true_eq] at hnames
    -- No other field has this key.
    obtain rfl : f = (name, d) :=
      List.inj_on_of_nodup_map (hkeys.nodup.sublist h) ((hmem f).mp hf) hd hname
    rw [he]
    rfl

theorem KeysIn.sized (h : KeysIn fields keys) (hkeys : Keys keys)
    (hvalues : ∀ f ∈ fields, Sized f.2) : Sized (.record fields) := by
  have hfew := h.few hkeys
  refine ⟨Nat.lt_of_le_of_lt hfew (by decide), (sizedFields_iff fields).mpr fun f hf => ?_⟩
  exact ⟨hkeys.short f.1 (h.mem hf), hvalues f hf⟩

theorem KeysIn.fits_eq (h : KeysIn fields keys) (hkeys : Keys keys) (levels : Nat) :
    fits (.record fields) (levels + 1) = fitsFields fields levels := by
  rw [fits, decide_eq_true (h.few hkeys), Bool.true_and]

end Fields

/-! ## Parts of a record -/

section Parts

variable (key name : String) (d : Document)

theorem lookup_always : (always key d).lookup name = if name = key then some d else none := by
  by_cases h : name = key
  · rw [if_pos h, h]
    exact List.lookup_cons_self
  · rw [if_neg h, always, List.lookup_cons, beq_eq_false_iff_ne.mpr h]
    rfl

theorem lookup_unless (c : Prop) [Decidable c] : (if c then [] else always key d).lookup name
    = if name = key then (if c then none else some d) else none := by
  split
  · rw [List.lookup_nil, ite_self]
  · exact lookup_always key name d

theorem keysIn_always : KeysIn (always key d) [key] := List.Sublist.refl _

theorem keysIn_unless (c : Prop) [Decidable c] : KeysIn (if c then [] else always key d) [key] := by
  split
  · exact List.nil_sublist _
  · exact keysIn_always key d

theorem forall_always {P : Document → Prop} : (∀ f ∈ always key d, P f.2) ↔ P d := by
  rw [always, List.forall_mem_singleton]

theorem forall_unless {P : Document → Prop} {c : Prop} [Decidable c] (h : ¬ c → P d) :
    ∀ f ∈ (if c then [] else always key d), P f.2 := by
  split
  · exact fun f hf => absurd hf List.not_mem_nil
  · next hc => exact (forall_always key d).mpr (h hc)

variable (t : Text) (n : Int)

theorem lookup_textUnlessEmpty : (textUnlessEmpty key t).lookup name
    = if name = key then (if t.isEmpty then none else some (.text t)) else none :=
  lookup_unless key name (.text t) (t.isEmpty = true)

theorem lookup_numberUnlessZero : (numberUnlessZero key n).lookup name
    = if name = key then (if n = 0 then none else some (.number n)) else none :=
  lookup_unless key name (.number n) (n = 0)

theorem keysIn_textUnlessEmpty : KeysIn (textUnlessEmpty key t) [key] :=
  keysIn_unless key (.text t) (t.isEmpty = true)

theorem keysIn_numberUnlessZero : KeysIn (numberUnlessZero key n) [key] :=
  keysIn_unless key (.number n) (n = 0)

theorem forall_textUnlessEmpty {P : Document → Prop} (h : P (.text t)) :
    ∀ f ∈ textUnlessEmpty key t, P f.2 := forall_unless key (.text t) fun _ => h

theorem forall_numberUnlessZero {P : Document → Prop} (h : P (.number n)) :
    ∀ f ∈ numberUnlessZero key n, P f.2 := forall_unless key (.number n) fun _ => h

theorem fitsFields_always (levels : Nat) : fitsFields (always key d) levels = fits d levels := by
  rw [always, fitsFields, fitsFields, Bool.and_true]

theorem fitsFields_unless (c : Prop) [Decidable c] (levels : Nat) :
    fitsFields (if c then [] else always key d) levels = (decide c || fits d levels) := by
  split
  · next hc => rw [fitsFields, decide_eq_true hc, Bool.true_or]
  · next hc => rw [fitsFields_always, decide_eq_false hc, Bool.false_or]

theorem fitsFields_textUnlessEmpty (levels : Nat) :
    fitsFields (textUnlessEmpty key t) levels = true :=
  (fitsFields_unless key (.text t) (t.isEmpty = true) levels).trans (by rw [fits, Bool.or_true])

theorem fitsFields_numberUnlessZero (levels : Nat) :
    fitsFields (numberUnlessZero key n) levels = true :=
  (fitsFields_unless key (.number n) (n = 0) levels).trans (by rw [fits, Bool.or_true])

theorem fitsFields_append (before after : List (String × Document)) (levels : Nat) :
    fitsFields (before ++ after) levels = (fitsFields before levels && fitsFields after levels) := by
  rw [fitsFields_eq, fitsFields_eq, fitsFields_eq, List.all_append]

theorem KeysIn.append {before after : List (String × Document)} {keys more : List String}
    (h : KeysIn before keys) (hmore : KeysIn after more) :
    KeysIn (before ++ after) (keys ++ more) := by
  rw [KeysIn, List.map_append]
  exact List.Sublist.append h hmore

end Parts

/-! ## Values -/

section Values

/-- As a rewriting rule and no more: where the conversion is of a number, comparing the two sides by
unfolding would count down from the end of its range. -/
theorem elim_some_apply {α : Type} (d : Document) (fallback : Option α)
    (convert : Document → Option α) : (some d).elim fallback convert = convert d := (rfl)

/-- A text is taken if it is valid. -/
theorem toText?_item (t : Text) : toText? (item (.text t)) = if t.isValid then some t else none := by
  rw [item, toText?, plain?_of_untagged fun _ _ => Item.noConfusion]
  simp only [Option.bind_eq_bind, Option.bind_some, textOf?, List.all_cons, List.all_nil,
    Bool.and_true, Text.ofList_toList, List.flatten_cons, List.flatten_nil, List.append_nil]

/-- An empty text may be left out. -/
theorem elim_textUnlessEmpty (t : Text) :
    (if t.isEmpty then none else some (Document.text t)).elim (some Text.empty)
      (fun d => toText? (item d)) = if t.isValid then some t else none := by
  split
  · next hempty =>
    obtain rfl : t = Text.empty := Text.toList_inj (List.eq_nil_of_length_eq_zero (by
      rw [Text.toList, Array.length_toList]
      exact beq_iff_eq.mp hempty))
    rfl
  · rw [elim_some_apply, toText?_item]

theorem toInt?_item (n : Int) : toInt? (item (.number n)) = some n := by
  unfold item
  split
  · rw [toInt?, plain?_of_untagged fun _ _ => Item.noConfusion]
    simp only [Option.bind_eq_bind, Option.bind_some]
    congr 1
    omega
  · rw [toInt?, plain?_of_untagged fun _ _ => Item.noConfusion]
    simp only [Option.bind_eq_bind, Option.bind_some]
    congr 1
    omega

theorem toWord?_item (w : UInt32) : toWord? (item (.number w.toNat)) = some w := by
  have hin : (0 : Int) ≤ w.toNat ∧ (w.toNat : Int) < 0x100000000 :=
    ⟨Int.natCast_nonneg _, Int.ofNat_lt.mpr w.toNat_lt⟩
  rw [toWord?, toInt?_item, Option.bind_eq_bind, Option.bind_some, if_pos hin, Int.toNat_natCast,
    UInt32.ofNat_toNat]

theorem toWord?_wordNumber (w : UInt32) : toWord? (item (wordNumber w)) = some w := toWord?_item w

theorem toCount?_item (c : Int64) : toCount? (item (.number c.toInt)) = some c := by
  have hin : -0x8000000000000000 ≤ c.toInt ∧ c.toInt < 0x8000000000000000 := by
    have hlo := c.le_toInt
    have hhi := c.toInt_lt
    omega
  rw [toCount?, toInt?_item, Option.bind_eq_bind, Option.bind_some, if_pos hin, Int64.ofInt_toInt]

/-- A number that is zero may be left out. -/
theorem elim_wordUnlessZero (w : UInt32) :
    (if (w.toNat : Int) = 0 then none else some (Document.number w.toNat)).elim (some 0)
      (fun d => toWord? (item d)) = some w := by
  split
  · next hzero =>
    have hw : w.toNat = 0 := by omega
    rw [Option.elim_none, UInt32.toNat_inj.mp (hw.trans UInt32.toNat_zero.symm)]
  · rw [elim_some_apply, toWord?_item]

theorem elim_countUnlessZero (c : Int64) :
    (if c.toInt = 0 then none else some (Document.number c.toInt)).elim (some 0)
      (fun d => toCount? (item d)) = some c := by
  split
  · next hzero => rw [Option.elim_none, Int64.toInt_inj.mp (hzero.trans Int64.toInt_zero.symm)]
  · rw [elim_some_apply, toCount?_item]

theorem toBool?_item (b : Bool) : toBool? (item (.bool b)) = some b := by
  cases b <;> rfl

/-- A list that was started is within the limits if its members are and it is not too long. -/
theorem fits_ofList? {α : Type} {document : α → Document} {levels : Nat} {ok : α → Bool}
    (h : ∀ x, fits (document x) levels = ok x) (xs : Option (List α)) :
    fits (ofList? document xs) (levels + 1)
      = (decide ((xs.getD []).length ≤ maxMembers) && (xs.getD []).all ok) := by
  cases xs with
  | none => rfl
  | some xs =>
    rw [ofList?, fits, fitsAll_eq, List.length_map, List.all_map, Option.getD_some]
    exact congrArg (_ && ·) (congrArg xs.all (funext h))

theorem fits_ofList?_of_fits {α : Type} {document : α → Document} {levels : Nat}
    (h : ∀ x, fits (document x) levels = true) (xs : Option (List α)) :
    fits (ofList? document xs) (levels + 1) = decide ((xs.getD []).length ≤ maxMembers) := by
  rw [fits_ofList? h, List.all_eq_true.mpr fun _ _ => rfl, Bool.and_true]

theorem sized_ofList? {α : Type} {document : α → Document} (xs : Option (List α))
    (hlen : (xs.getD []).length < 0x10000000000000000)
    (h : ∀ x ∈ xs.getD [], Sized (document x)) : Sized (ofList? document xs) := by
  cases xs with
  | none => trivial
  | some xs =>
    refine ⟨by rwa [List.length_map], (sizedAll_iff _).mpr ?_⟩
    rintro d hd
    obtain ⟨x, hx, rfl⟩ := List.mem_map.mp hd
    exact h x hx

/-- A list is taken if each of its members is. -/
theorem toList?_item {α : Type} {document : α → Document} {ofItem? : Item → Option α}
    {ok : α → Bool} (h : ∀ x, ofItem? (item (document x)) = if ok x then some x else none)
    (xs : Option (List α)) :
    toList? ofItem? (item (ofList? document xs))
      = if (xs.getD []).all ok then some xs else none := by
  cases xs with
  | none => rfl
  | some xs =>
    have hmembers : (xs.map fun x => item (document x)).mapM ofItem?
        = if xs.all ok then some (xs.map id) else none := mapM_map_ite xs fun x _ => h x
    rw [ofList?, item, itemAll_eq, toList?, plain?_of_untagged fun _ _ => Item.noConfusion]
    simp only [Option.bind_eq_bind, Option.bind_some, List.map_map, Function.comp_def, hmembers,
      Option.getD_some]
    split
    · rw [List.map_id]
      rfl
    · rfl

end Values

end Report.Cbor

end ManagedImage
