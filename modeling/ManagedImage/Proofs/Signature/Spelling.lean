/-
How types are spelled, and what is never spelled.

A parameter list that breaks off is shown with a mark, `<invalid>`, in place of the
parameter that could not be read. The mark holds the letters `nva`, and nothing else
that a type is spelled with does: neither the words and signs around a type, nor
numbers, nor tokens shown as they are. `unmarked` says this of some bytes in a form
that survives putting text behind text, so the main statement is one line for each
form of type.
-/
import ManagedImage.Proofs.Signature.Grammar
import ManagedImage.Proofs.Text.Encoding

set_option autoImplicit false

namespace ManagedImage

/-- Something other than `va` is ahead, and stays ahead whatever is put behind. -/
def turnsAway : List UInt8 → Bool
  | [] => false
  | [b] => b ≠ 0x76
  | b :: c :: _ => b ≠ 0x76 || c ≠ 0x61

/-- Behind every letter n the bytes turn away from spelling `nva`. -/
def unmarked : List UInt8 → Bool
  | [] => true
  | b :: rest => (b ≠ 0x6E || turnsAway rest) && unmarked rest

theorem turnsAway_append {a : List UInt8} (h : turnsAway a = true) (b : List UInt8) :
    turnsAway (a ++ b) = true := by
  rcases a with - | ⟨x, - | ⟨y, rest⟩⟩
  · cases h
  · cases b with
    | nil => exact h
    | cons y rest => exact (Bool.or_eq_true ..).mpr (Or.inl h)
  · exact h

theorem unmarked_append {a b : List UInt8} (ha : unmarked a = true) (hb : unmarked b = true) :
    unmarked (a ++ b) = true := by
  induction a with
  | nil => exact hb
  | cons x rest ih =>
    rw [unmarked, Bool.and_eq_true, Bool.or_eq_true] at ha
    obtain ⟨hx, hrest⟩ := ha
    rw [List.cons_append, unmarked, Bool.and_eq_true, Bool.or_eq_true]
    exact ⟨hx.imp_right fun h => turnsAway_append h b, ih hrest⟩

theorem unmarked_of_forall_ne {bs : List UInt8} (h : ∀ b ∈ bs, b ≠ 0x6E) : unmarked bs = true := by
  induction bs with
  | nil => rfl
  | cons b rest ih =>
    rw [unmarked, decide_eq_true (h b List.mem_cons_self), Bool.true_or, Bool.true_and]
    exact ih fun c hc => h c (List.mem_cons_of_mem b hc)

namespace Text

/-- The text does not spell the middle of the mark, nor does it with any text of the kind behind
it. -/
def Unmarked (t : Text) : Prop := unmarked t.toList = true

instance (t : Text) : Decidable t.Unmarked := inferInstanceAs (Decidable (_ = true))

/-- **The mark does not occur in unmarked text.** -/
theorem Unmarked.not_contains {t : Text} (h : t.Unmarked) : t.contains "<invalid>" = false := by
  have hall : ∀ bs : List UInt8, unmarked bs = true →
      occursIn (ofString "<invalid>").toList bs = false := by
    intro bs
    induction bs with
    | nil => exact fun _ => by decide
    | cons b rest ih =>
      intro hbs
      rw [unmarked, Bool.and_eq_true] at hbs
      rw [occursIn, ih hbs.2, Bool.or_false, Bool.eq_false_iff]
      intro hmark
      -- Behind the first byte the mark goes on with `inva`.
      obtain ⟨tail, htail⟩ := List.isPrefixOf_iff_prefix.mp hmark
      have hbytes : (ofString "<invalid>").toList
          = [0x3C, 0x69, 0x6E, 0x76, 0x61, 0x6C, 0x69, 0x64, 0x3E] := by decide
      rw [hbytes, List.cons_append] at htail
      obtain ⟨-, rfl⟩ := List.cons.inj htail
      simp [unmarked, turnsAway] at hbs
  exact hall t.toList h

theorem Unmarked.append {a b : Text} (ha : a.Unmarked) (hb : b.Unmarked) : (a ++ b).Unmarked := by
  have hbytes : (a ++ b).toList = a.toList ++ b.toList := by
    show (a.bytes ++ b.bytes).data.toList = _
    rw [ByteArray.data_append, Array.toList_append]
    rfl
  rw [Unmarked, hbytes]
  exact unmarked_append ha hb

theorem unmarked_join {sep : Text} {ts : List Text} (hsep : sep.Unmarked)
    (hts : ∀ t ∈ ts, t.Unmarked) : (join sep ts).Unmarked := by
  have hfold : ∀ (rest : List Text) (acc : Text), acc.Unmarked → (∀ t ∈ rest, t.Unmarked) →
      (rest.foldl (fun acc u => acc ++ sep ++ u) acc).Unmarked := by
    intro rest
    induction rest with
    | nil => exact fun _ hacc _ => hacc
    | cons u rest ih =>
      intro acc hacc hrest
      refine ih _ ((hacc.append hsep).append (hrest u List.mem_cons_self)) fun t ht => ?_
      exact hrest t (List.mem_cons_of_mem u ht)
  cases ts with
  | nil => exact rfl
  | cons t rest =>
    exact hfold rest t (hts t List.mem_cons_self) fun u hu => hts u (List.mem_cons_of_mem t hu)

/-- Bytes of longer characters are all above 0x7F. -/
theorem eq_letter_n_of_mem {c : Char} (h : 0x6E ∈ String.utf8EncodeChar c) : c = 'n' := by
  have hchar := toNat_char_cases c
  have hbyte : ∀ n, (0x6E : UInt8) = UInt8.ofNat n → n % 256 = 0x6E := by
    intro n hn
    rw [← UInt8.toNat_ofNat', ← hn]
    rfl
  simp only [String.utf8EncodeChar, show c.val.toNat = c.toNat from rfl] at h
  split at h
  · have hn := hbyte _ (List.mem_singleton.mp h)
    apply Char.ext
    apply UInt32.toNat_inj.mp
    show c.toNat = 0x6E
    omega
  · exfalso
    split at h
    · simp only [List.mem_cons, List.not_mem_nil, or_false] at h
      rcases h with h | h <;> have hn := hbyte _ h <;> omega
    · split at h
      · simp only [List.mem_cons, List.not_mem_nil, or_false] at h
        rcases h with h | h | h <;> have hn := hbyte _ h <;> omega
      · simp only [List.mem_cons, List.not_mem_nil, or_false] at h
        rcases h with h | h | h | h <;> have hn := hbyte _ h <;> omega

/-- Text without the letter n. -/
theorem unmarked_ofString {s : String} (h : 'n' ∉ s.toList) : (ofString s).Unmarked := by
  refine unmarked_of_forall_ne fun b hb hn => h ?_
  change b ∈ s.toUTF8.data.toList at hb
  rw [toUTF8_toList] at hb
  obtain ⟨c, hc, hbc⟩ := List.mem_flatMap.mp hb
  rw [hn] at hbc
  rw [← eq_letter_n_of_mem hbc]
  exact hc

theorem unmarked_ofString_append {s t : String} (hs : (ofString s).Unmarked)
    (ht : (ofString t).Unmarked) : (ofString (s ++ t)).Unmarked := by
  have hbytes : (ofString (s ++ t)).toList = (ofString s).toList ++ (ofString t).toList := by
    show (s ++ t).toUTF8.data.toList = s.toUTF8.data.toList ++ t.toUTF8.data.toList
    rw [toUTF8_toList, toUTF8_toList, toUTF8_toList, String.toList_append, List.flatMap_append]
  rw [Unmarked, hbytes]
  exact unmarked_append hs ht

end Text

/-! ## Numbers and tokens -/

theorem exists_digit_of_mem {base : Nat} (hbase : 1 < base) (n : Nat) :
    ∀ c ∈ Nat.toDigits base n, ∃ k < base, c = Nat.digitChar k := by
  induction n using Nat.strongRecOn with
  | _ n ih =>
    intro c hc
    rw [Nat.toDigits_eq_if hbase] at hc
    split at hc
    · exact ⟨n, ‹_›, List.mem_singleton.mp hc⟩
    · rcases List.mem_append.mp hc with hfirst | hlast
      · exact ih (n / base) (Nat.div_lt_self (by omega) hbase) c hfirst
      · exact ⟨n % base, Nat.mod_lt n (by omega), List.mem_singleton.mp hlast⟩

theorem not_mem_toString (n : Nat) : 'n' ∉ (toString n).toList := by
  rw [Nat.toString_eq_ofList_toDigits, String.toList_ofList]
  intro hn
  obtain ⟨k, hk, hdigit⟩ := exists_digit_of_mem (by decide) n _ hn
  have hall : ∀ k < 10, 'n' ≠ Nat.digitChar k := by decide
  exact hall k hk hdigit

theorem not_mem_decimal (i : Int) : 'n' ∉ (decimal i).toList := by
  unfold decimal
  split
  · rw [String.toList_append, List.mem_append, not_or]
    exact ⟨by decide, not_mem_toString _⟩
  · exact not_mem_toString _

theorem not_mem_intercalate {sep : String} (hsep : 'n' ∉ sep.toList) {ss : List String}
    (h : ∀ s ∈ ss, 'n' ∉ s.toList) : 'n' ∉ (sep.intercalate ss).toList := by
  rw [String.toList_intercalate]
  induction ss with
  | nil => exact List.not_mem_nil
  | cons s rest ih =>
    have hs := h s List.mem_cons_self
    cases rest with
    | nil =>
      rw [List.map_cons, List.map_nil, List.intercalate_singleton]
      exact hs
    | cons u rest =>
      have hrest := ih fun t ht => h t (List.mem_cons_of_mem s ht)
      rw [List.map_cons, List.map_cons, List.intercalate_cons_cons, List.mem_append,
        List.mem_append, not_or, not_or]
      exact ⟨⟨hs, hsep⟩, hrest⟩

theorem not_mem_padLeft {s : String} (h : 'n' ∉ s.toList) (width : Nat) :
    'n' ∉ (padLeft width '0' s).toList := by
  rw [padLeft, String.toList_append, String.toList_ofList, List.mem_append, not_or]
  exact ⟨fun hn => absurd (List.eq_of_mem_replicate hn) (by decide), h⟩

theorem not_mem_hex (n : Nat) : 'n' ∉ (hex n).toList := by
  rw [hex, String.toList_ofList]
  intro hn
  obtain ⟨k, hk, hdigit⟩ := exists_digit_of_mem (by decide) n _ hn
  have hall : ∀ k < 16, 'n' ≠ Nat.digitChar k := by decide
  exact hall k hk hdigit

theorem not_mem_hexUpper (n : Nat) : 'n' ∉ (hexUpper n).toList := by
  rw [hexUpper, String.toList_ofList]
  intro hn
  obtain ⟨c, hc, hupper⟩ := List.mem_map.mp hn
  obtain ⟨k, hk, rfl⟩ := exists_digit_of_mem (by decide) n c hc
  have hall : ∀ k < 16, (Nat.digitChar k).toUpper ≠ 'n' := by decide
  exact hall k hk hupper

theorem unmarked_tableNumberText (n : Nat) : (Text.ofString (tableNumberText n)).Unmarked := by
  unfold tableNumberText
  split
  · rename_i t _
    cases t <;> decide
  · split
    · decide
    · refine Text.unmarked_ofString_append (Text.unmarked_ofString_append (by decide) ?_) (by decide)
      exact Text.unmarked_ofString (not_mem_padLeft (not_mem_hex n) 2)

theorem Token.unmarked_render (tok : Token) : (Text.ofString tok.render).Unmarked := by
  refine Text.unmarked_ofString_append (Text.unmarked_ofString_append ?_ (by decide)) ?_
  · exact unmarked_tableNumberText tok.tableNumber
  · exact Text.unmarked_ofString (not_mem_padLeft (not_mem_hexUpper _) 8)

/-! ## Parts of types -/

/-- One of the names ends in the letter n, so the blank behind it belongs to it. -/
theorem unmarked_conventionText (n : Nat) :
    (Text.ofString (conventionText n) ++ Text.ofString " ").Unmarked := by
  unfold conventionText
  split
  case h_12 =>
    have hhex := Text.unmarked_ofString (not_mem_hex n)
    refine Text.Unmarked.append ?_ (by decide)
    exact Text.unmarked_ofString_append (Text.unmarked_ofString_append (by decide) hhex) (by decide)
  all_goals decide

theorem MethodHead.unmarked_render (h : MethodHead) {ret label : Text} {params : List Text}
    (hret : ret.Unmarked) (hlabel : label.Unmarked) (hparams : ∀ p ∈ params, p.Unmarked) :
    (h.render ret label params).Unmarked := by
  have hword : ∀ (c : Prop) [Decidable c] {t : Text}, t.Unmarked →
      (if c then t else Text.empty).Unmarked := by
    intro c _ t ht
    split
    · exact ht
    · exact rfl
  have hgeneric : ∀ n : Nat, (Text.ofString s!"<[{n}]>").Unmarked := by
    intro n
    refine Text.unmarked_ofString_append (Text.unmarked_ofString_append (by decide) ?_) (by decide)
    exact Text.unmarked_ofString (not_mem_toString n)
  have hconvention := hword (h.convention ≠ 0) (unmarked_conventionText h.convention)
  have hthis := hword (h.hasThis = true) (show Text.Unmarked "instance " by decide)
  have hexplicit := hword (h.explicitThis = true) (show Text.Unmarked "explicit " by decide)
  have hjoin := Text.unmarked_join (show Text.Unmarked ", " by decide) hparams
  have hparts : ∀ {generic : Text}, generic.Unmarked → _ := fun {generic} hgeneric =>
    (((((((hthis.append hexplicit).append hconvention).append hret).append hlabel).append
      hgeneric).append (show Text.Unmarked "(" by decide)).append hjoin).append
        (show Text.Unmarked ")" by decide)
  unfold MethodHead.render
  cases h.genericCount with
  | none => exact hparts (show Text.empty.Unmarked from rfl)
  | some n => exact hparts (hgeneric n)

namespace TypeSig

theorem not_mem_dimensionText (size? : Option Nat) (lower? : Option Int) :
    'n' ∉ (dimensionText size? lower?).toList := by
  cases lower? with
  | none =>
    cases size? with
    | none => decide
    | some n => exact not_mem_toString n
  | some lo =>
    cases size? with
    | none =>
      rw [dimensionText, String.toList_append, List.mem_append, not_or]
      exact ⟨not_mem_decimal lo, by decide⟩
    | some n =>
      rw [dimensionText, String.toList_append, String.toList_append, List.mem_append,
        List.mem_append, not_or, not_or]
      exact ⟨⟨not_mem_decimal lo, by decide⟩, not_mem_decimal _⟩

theorem unmarked_dimensionsText (rank : Nat) (sizes : List Nat) (lower : List Int) :
    (Text.ofString (dimensionsText rank sizes lower)).Unmarked := by
  refine Text.unmarked_ofString_append (Text.unmarked_ofString_append (by decide) ?_) (by decide)
  refine Text.unmarked_ofString (not_mem_intercalate (by decide) fun s hs => ?_)
  obtain ⟨i, -, rfl⟩ := List.mem_map.mp hs
  exact not_mem_dimensionText _ _

theorem unmarked_paramTexts {types : List Text} (sentinel : Option Nat)
    (h : ∀ t ∈ types, t.Unmarked) : ∀ t ∈ paramTexts types sentinel true, t.Unmarked := by
  intro t ht
  cases sentinel with
  | none =>
    rw [paramTexts, if_pos rfl, List.append_nil] at ht
    exact h t ht
  | some n =>
    rw [paramTexts, if_pos rfl, List.append_nil] at ht
    rcases List.mem_append.mp ht with hfront | hback
    · rcases List.mem_append.mp hfront with htake | hdots
      · exact h t (List.mem_of_mem_take htake)
      · rw [List.mem_singleton.mp hdots]
        decide
    · exact h t (List.mem_of_mem_drop hback)

theorem unmarked_classWord (isValue : Bool) : (classWord isValue).Unmarked := by
  cases isValue with
  | true => decide
  | false => decide

/-- All parameters of the node could be read, if it is a function pointer. -/
def Complete (_ : Bool) : TypeSig → Prop
  | .fnPtr _ _ _ _ complete _ => complete = true
  | _ => True

section Render

variable {name : Token → Text}

mutual

/-- **A type is spelled without the mark** if all its function pointers are complete and no name
spells it. -/
theorem unmarked_render (hname : ∀ tok, (name tok).Unmarked) :
    ∀ (t : TypeSig) (v : Bool), t.Everywhere Complete v → (t.render name).Unmarked
  | .prim p, v, _ => by
    rw [render]
    cases p <;> decide
  | .named tok isValue, v, _ => by
    rw [render]
    exact (unmarked_classWord isValue).append (hname tok)
  | .inst tok isValue args, v, h => by
    rw [render]
    have hargs := Text.unmarked_join (show Text.Unmarked "," by decide)
      (unmarked_renderAll hname args h.2)
    exact ((((unmarked_classWord isValue).append (hname tok)).append (by decide)).append
      hargs).append (by decide)
  | .array elem rank sizes lower, v, h => by
    rw [render]
    exact (unmarked_render hname elem false h.2).append (unmarked_dimensionsText rank sizes lower)
  | .szArray elem, v, h => by
    rw [render]
    exact (unmarked_render hname elem false h.2).append (by decide)
  | .pointer elem, v, h => by
    rw [render]
    exact (unmarked_render hname elem true h.2).append (by decide)
  | .byRef elem, v, h => by
    rw [render]
    exact (unmarked_render hname elem false h.2).append (by decide)
  | .pinned elem, v, h => by
    rw [render]
    exact (unmarked_render hname elem false h.2).append (by decide)
  | .modified required tok elem, v, h => by
    rw [render]
    have hword : Text.Unmarked (if required then (" modreq(" : Text) else " modopt(") := by
      cases required with
      | true => decide
      | false => decide
    exact (((unmarked_render hname elem v h.2).append hword).append (hname tok)).append (by decide)
  | .typeVar i, v, _ => by
    rw [render]
    exact Text.unmarked_ofString_append (by decide) (Text.unmarked_ofString (not_mem_toString i))
  | .methodVar i, v, _ => by
    rw [render]
    exact Text.unmarked_ofString_append (by decide) (Text.unmarked_ofString (not_mem_toString i))
  | .fnPtr head ret params sentinel complete bytes, v, h => by
    obtain ⟨rfl, hret, hparams⟩ := h
    rw [render]
    refine Text.Unmarked.append (by decide) ?_
    refine head.unmarked_render (unmarked_render hname ret true hret) (by decide) ?_
    exact unmarked_paramTexts sentinel (unmarked_renderAll hname params hparams)

theorem unmarked_renderAll (hname : ∀ tok, (name tok).Unmarked) :
    ∀ ts : List TypeSig, EverywhereAll Complete ts → ∀ t ∈ renderAll name ts, t.Unmarked
  | [], _ => List.forall_mem_nil _
  | t :: rest, h => by
    rw [renderAll]
    exact List.forall_mem_cons.mpr ⟨unmarked_render hname t false h.1, unmarked_renderAll hname rest h.2⟩

end

end Render

end TypeSig

end ManagedImage
