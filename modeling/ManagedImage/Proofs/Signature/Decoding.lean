/-
Types are read back from their bytes.

The proof is on the number of levels the decoder may still go down: at each level
the tag selects one branch, the branch is a sequence of steps that read their own
bytes (`Reads`), and the types inside are read one level further down. Void and
the other primitives need nothing behind the tag.
-/
import ManagedImage.Proofs.Signature.Params

set_option autoImplicit false

namespace ManagedImage

open Decode

/-! ## The branches of the decoder -/

namespace Decode

variable (inner : Bool → Decode TypeSig) (v : Bool) (at_ : Nat)

theorem typeBody_prim {p : Primitive} (hvoid : p = .void → v = true) (hsystem : p ≠ .systemType) :
    typeBody inner v at_ p.code = pure (.prim p) := by
  cases p with
  | void =>
    obtain rfl := hvoid rfl
    rfl
  | systemType => exact absurd rfl hsystem
  | _ => rfl

theorem typeBody_named (isValue : Bool) : typeBody inner v at_ (classTag isValue)
    = token >>= fun tok => pure (.named tok isValue) := by
  cases isValue with
  | true => rfl
  | false => rfl

/-- A generic instance after its tag. -/
def instBody (inner : Decode TypeSig) : Decode TypeSig :=
  Decode.offset >>= fun at_ => byte "generic instance" >>= fun flag =>
    if flag.toNat ≠ Element.classType ∧ flag.toNat ≠ Element.valueType then
      throw (.format .signature at_
        ("generic instance of element type 0x" ++ hexPad 2 flag.toNat : String))
    else token >>= fun tok =>
      counted "generic argument count" "generic arguments" inner >>= fun args =>
      pure (.inst tok (flag.toNat = Element.valueType) args)

theorem typeBody_inst : typeBody inner v at_ Element.genericInst = instBody (inner false) := rfl

theorem typeBody_pointer : typeBody inner v at_ Element.ptr
    = inner true >>= fun t => pure (.pointer t) := rfl

theorem typeBody_byRef : typeBody inner v at_ Element.byRef
    = inner false >>= fun t => pure (.byRef t) := rfl

theorem typeBody_szArray : typeBody inner v at_ Element.szArray
    = inner false >>= fun t => pure (.szArray t) := rfl

theorem typeBody_pinned : typeBody inner v at_ Element.pinned
    = inner false >>= fun t => pure (.pinned t) := rfl

theorem typeBody_modified (required : Bool) : typeBody inner v at_ (modifierTag required)
    = token >>= fun tok => inner v >>= fun t => pure (.modified required tok t) := by
  cases required with
  | true => rfl
  | false => rfl

theorem typeBody_array : typeBody inner v at_ Element.array
    = inner false >>= fun elem => compressed "array rank" >>= fun rank =>
      counted "array size count" "array sizes" (compressed "array size") >>= fun sizes =>
      counted "array bound count" "array bounds" signed >>= fun lower =>
      pure (.array elem rank sizes lower) := rfl

theorem typeBody_typeVar : typeBody inner v at_ Element.typeVar
    = compressed "generic parameter index" >>= fun i => pure (.typeVar i) := rfl

theorem typeBody_methodVar : typeBody inner v at_ Element.methodVar
    = compressed "generic parameter index" >>= fun i => pure (.methodVar i) := rfl

theorem typeBody_fnPtr : typeBody inner v at_ Element.fnPtr
    = methodHead .memberRef >>= fun head => inner true >>= fun ret =>
      paramStep (inner false) head.paramCount >>= fun r =>
      pure (.fnPtr head ret r.1.types r.1.sentinel true r.2) := by
  refine congrArg (methodHead .memberRef >>= ·) (funext fun head => ?_)
  refine congrArg (inner true >>= ·) (funext fun ret => funext fun d => ?_)
  simp only [EStateM.bind_apply, EStateM.get_apply, paramStep]
  rcases params (inner false) head.paramCount .none d with ⟨_ | _, scan, d'⟩
  · rfl
  · rfl

/-- A type one level further out is its tag and the branch of the tag. -/
theorem reads_typeWithin {levels tag : Nat} {bs : List UInt8} {t : TypeSig}
    (htag : tag < 256 ∧ tag ≠ Element.sentinel)
    (h : ∀ at_, Reads 0 (typeBody (typeWithin levels) v at_ tag) bs t) :
    Leads (UInt8.ofNat tag :: bs) ∧ Reads 0 (typeWithin (levels + 1) v) (UInt8.ofNat tag :: bs) t := by
  have hbyte : (UInt8.ofNat tag).toNat = tag := by
    rw [UInt8.toNat_ofNat']
    omega
  refine ⟨⟨UInt8.ofNat tag, bs, rfl, by rw [hbyte]; exact htag.2⟩, Reads.of_offset fun offset => ?_⟩
  refine Reads.after_byte ?_ "element type"
  rw [hbyte]
  exact h offset

end Decode

namespace TypeSig

/-! ## Types inside types -/

theorem encodeAll_eq (ts : List TypeSig) : encodeAll ts = encodeEach encode ts := by
  induction ts with
  | nil => rfl
  | cons t rest ih => rw [encodeAll, encodeEach, ih]

/-- The bytes are a piece that `step` reads to the type, up to the bytes of parameters. -/
def Spells (step : Decode TypeSig) (bs : List UInt8) (t : TypeSig) : Prop :=
  ∃ u, u.bare = t.bare ∧ Leads bs ∧ Reads 0 step bs u

/-- Types that are read one by one. -/
theorem exists_of_spells {step : Decode TypeSig} {pieces : List (List UInt8)} {ts : List TypeSig}
    (h : List.Forall₂ (Spells step) pieces ts) :
    ∃ us, bareAll us = bareAll ts ∧ us.length = ts.length ∧ (∀ c ∈ pieces, Leads c)
      ∧ List.Forall₂ (Reads 0 step) pieces us := by
  induction h with
  | nil => exact ⟨[], rfl, rfl, List.forall_mem_nil _, List.Forall₂.nil⟩
  | @cons c t pieces ts hfirst _ ih =>
    obtain ⟨u, hbare, hlead, hreads⟩ := hfirst
    obtain ⟨us, hbares, hlength, hleads, hall⟩ := ih
    refine ⟨u :: us, ?_, ?_, ?_, List.Forall₂.cons hreads hall⟩
    · rw [bareAll, bareAll, hbare, hbares]
    · rw [List.length_cons, List.length_cons, hlength]
    · rintro d hd
      rcases List.mem_cons.mp hd with rfl | hrest
      · exact hlead
      · exact hleads d hrest

/-- Every type that nests no deeper is read back from what is written for it. -/
def SpelledWithin (levels : Nat) : Prop :=
  ∀ (t : TypeSig) (v : Bool) (bs : List UInt8), t.encode = .ok bs → t.levels ≤ levels →
    t.Everywhere VoidPlaced v → Spells (typeWithin levels v) bs t

/-- What is known of all types that nest less deep gives the types of a list. -/
theorem SpelledWithin.all {levels : Nat} {ts : List TypeSig} {pieces : List (List UInt8)}
    (ih : SpelledWithin levels) (hpieces : encodeAll ts = .ok pieces)
    (hlevels : levelsAll ts ≤ levels) (hplaced : EverywhereAll VoidPlaced ts) :
    ∃ us, bareAll us = bareAll ts ∧ us.length = ts.length ∧ (∀ c ∈ pieces, Leads c)
      ∧ List.Forall₂ (Reads 0 (typeWithin levels false)) pieces us := by
  rw [encodeAll_eq] at hpieces
  refine exists_of_spells (forall₂_of_encodeEach (fun t ht c hc => ?_) hpieces)
  exact ih t false c hc (Nat.le_trans (levels_le_levelsAll ht) hlevels)
    (everywhereAll_iff.mp hplaced t ht)

theorem reads_sizes {sizes : List Nat} {pieces : List (List UInt8)} {bs : List UInt8}
    (hpieces : encodeEach Compressed.encode sizes = .ok pieces) (hbs : countedBytes pieces = .ok bs) :
    Reads 0 (counted "array size count" "array sizes" (compressed "array size")) bs sizes := by
  have hall := forall₂_of_encodeEach (P := fun c n => c ≠ [] ∧ Reads 0 (compressed "array size") c n)
    (fun n _ c hc => ⟨Compressed.encode_ne_nil hc, reads_compressed _ hc⟩) hpieces
  obtain ⟨hne, hreads⟩ := (List.forall₂_and_left _ _).mp hall
  exact reads_counted _ _ hbs hreads hne

theorem reads_lower {lower : List Int} {pieces : List (List UInt8)} {bs : List UInt8}
    (hpieces : encodeEach Compressed.encodeSigned lower = .ok pieces)
    (hbs : countedBytes pieces = .ok bs) :
    Reads 0 (counted "array bound count" "array bounds" signed) bs lower := by
  have hall := forall₂_of_encodeEach (P := fun c v => c ≠ [] ∧ Reads 0 signed c v)
    (fun v _ c hc => ⟨Compressed.encodeSigned_ne_nil hc, reads_signed hc⟩) hpieces
  obtain ⟨hne, hreads⟩ := (List.forall₂_and_left _ _).mp hall
  exact reads_counted _ _ hbs hreads hne

/-! ## All types -/

theorem code_lt (p : Primitive) : p.code < 256 ∧ p.code ≠ Element.sentinel := by
  cases p <;> decide

theorem classTag_lt (isValue : Bool) :
    classTag isValue < 256 ∧ classTag isValue ≠ Element.sentinel := by
  cases isValue <;> decide

theorem modifierTag_lt (required : Bool) :
    modifierTag required < 256 ∧ modifierTag required ≠ Element.sentinel := by
  cases required <;> decide

theorem reads_instBody {step : Decode TypeSig} {tok : Token} {isValue : Bool} {us : List TypeSig}
    {token args : List UInt8} (htok : Reads 0 Decode.token token tok)
    (hargs : Reads 0 (counted "generic argument count" "generic arguments" step) args us) :
    Reads 0 (instBody step) (UInt8.ofNat (classTag isValue) :: (token ++ args))
      (.inst tok isValue us) := by
  refine Reads.of_offset fun offset => ?_
  refine Reads.after_byte ?_ "generic instance"
  cases isValue with
  | true => exact htok.bind (hargs.map _) (Nat.zero_le _)
  | false => exact htok.bind (hargs.map _) (Nat.zero_le _)

/-- A type that is a tag in front of another type. -/
theorem Spells.wrap {levels tag : Nat} {void : Bool} {bs : List UInt8} {elem : TypeSig}
    {wrap : TypeSig → TypeSig} (h : Spells (typeWithin levels void) bs elem) (v : Bool)
    (htag : tag < 256 ∧ tag ≠ Element.sentinel) (hbare : ∀ t, (wrap t).bare = wrap t.bare)
    (hbody : ∀ at_, typeBody (typeWithin levels) v at_ tag
      = typeWithin levels void >>= fun t => pure (wrap t)) :
    Spells (typeWithin (levels + 1) v) (UInt8.ofNat tag :: bs) (wrap elem) := by
  obtain ⟨u, helem, -, hread⟩ := h
  refine ⟨wrap u, by rw [hbare, hbare, helem], reads_typeWithin v htag fun at_ => ?_⟩
  rw [hbody at_]
  exact hread.map wrap

/-! One lemma for each form that has more in it than one other type, given the types that nest
less deep. -/

section Forms

variable {levels : Nat} (v : Bool) {bs : List UInt8}

theorem SpelledWithin.inst (ih : SpelledWithin levels) {tok : Token} {isValue : Bool}
    {args : List TypeSig} (h : (TypeSig.inst tok isValue args).encode = .ok bs)
    (hlevels : levelsAll args ≤ levels) (hplaced : EverywhereAll VoidPlaced args) :
    Spells (typeWithin (levels + 1) v) bs (.inst tok isValue args) := by
  rw [encode] at h
  obtain ⟨token, htoken, h⟩ := Except.bind_ok h
  obtain ⟨pieces, hpieces, h⟩ := Except.bind_ok h
  obtain ⟨bytes, hbytes, rfl⟩ := Except.map_ok h
  obtain ⟨us, hbare, -, hleads, hreads⟩ := ih.all hpieces hlevels hplaced
  refine ⟨.inst tok isValue us, by rw [bare, bare, hbare],
    reads_typeWithin v (by decide) fun at_ => ?_⟩
  rw [typeBody_inst]
  exact reads_instBody (reads_token htoken)
    (reads_counted _ _ hbytes hreads fun c hc => (hleads c hc).ne_nil)

theorem SpelledWithin.array (ih : SpelledWithin levels) {elem : TypeSig} {rank : Nat}
    {sizes : List Nat} {lower : List Int}
    (h : (TypeSig.array elem rank sizes lower).encode = .ok bs) (hlevels : elem.levels ≤ levels)
    (hplaced : elem.Everywhere VoidPlaced false) :
    Spells (typeWithin (levels + 1) v) bs (.array elem rank sizes lower) := by
  rw [encode] at h
  obtain ⟨bytes, hbytes, h⟩ := Except.bind_ok h
  obtain ⟨rankBytes, hrank, h⟩ := Except.bind_ok h
  obtain ⟨sizePieces, hsizePieces, h⟩ := Except.bind_ok h
  obtain ⟨sizeBytes, hsizes, h⟩ := Except.bind_ok h
  obtain ⟨lowerPieces, hlowerPieces, h⟩ := Except.bind_ok h
  obtain ⟨lowerBytes, hlower, rfl⟩ := Except.map_ok h
  obtain ⟨u, hbare, -, hread⟩ := ih elem false bytes hbytes hlevels hplaced
  refine ⟨.array u rank sizes lower, by rw [bare, bare, hbare],
    reads_typeWithin v (by decide) fun at_ => ?_⟩
  rw [typeBody_array]
  refine hread.bind ?_ (Nat.zero_le _)
  refine (reads_compressed _ hrank).bind ?_ (Nat.zero_le _)
  refine (reads_sizes hsizePieces hsizes).bind ?_ (Nat.zero_le _)
  exact (reads_lower hlowerPieces hlower).map _

theorem SpelledWithin.modified (ih : SpelledWithin levels) {required : Bool} {tok : Token}
    {elem : TypeSig} (h : (TypeSig.modified required tok elem).encode = .ok bs)
    (hlevels : elem.levels ≤ levels) (hplaced : elem.Everywhere VoidPlaced v) :
    Spells (typeWithin (levels + 1) v) bs (.modified required tok elem) := by
  rw [encode] at h
  obtain ⟨token, htoken, h⟩ := Except.bind_ok h
  obtain ⟨bytes, hbytes, rfl⟩ := Except.map_ok h
  obtain ⟨u, hbare, -, hread⟩ := ih elem v bytes hbytes hlevels hplaced
  refine ⟨.modified required tok u, by rw [bare, bare, hbare],
    reads_typeWithin v (modifierTag_lt required) fun at_ => ?_⟩
  rw [typeBody_modified]
  exact (reads_token htoken).bind (hread.map _) (Nat.zero_le _)

theorem SpelledWithin.fnPtr (ih : SpelledWithin levels) {head : MethodHead} {ret : TypeSig}
    {params : List TypeSig} {sentinel : Option Nat} {complete : Bool} {stored : List UInt8}
    (h : (TypeSig.fnPtr head ret params sentinel complete stored).encode = .ok bs)
    (hlevels : max ret.levels (levelsAll params) ≤ levels)
    (hret : ret.Everywhere VoidPlaced true) (hplaced : EverywhereAll VoidPlaced params) :
    Spells (typeWithin (levels + 1) v) bs
      (.fnPtr head ret params sentinel complete stored) := by
  rw [encode] at h
  by_cases hp : head.paramCount = params.length ∧ ∀ n, sentinel = some n → n < params.length
  · rw [if_pos hp] at h
    obtain ⟨headBytes, hhead, h⟩ := Except.bind_ok h
    obtain ⟨retBytes, hretBytes, h⟩ := Except.bind_ok h
    obtain ⟨pieces, hpieces, rfl⟩ := Except.map_ok h
    obtain ⟨hcount, hin⟩ := hp
    obtain ⟨hretLevels, hparamLevels⟩ := Nat.max_le.mp hlevels
    obtain ⟨u, hbare, hlead, hread⟩ := ih ret true retBytes hretBytes hretLevels hret
    obtain ⟨us, hbares, hlength, hleads, hreads⟩ := ih.all hpieces hparamLevels hplaced
    rw [← hlength] at hcount hin
    have hparams := reads_paramStep hreads hleads hin
    rw [← hcount] at hparams
    refine ⟨.fnPtr head u us sentinel true (paramBytes sentinel pieces),
      by rw [bare, bare, hbare, hbares], reads_typeWithin v (by decide) fun at_ => ?_⟩
    rw [typeBody_fnPtr]
    -- A byte for the return type and one for each parameter are more than the count needs.
    refine (reads_methodHead hhead).bind ?_ ?_
    · exact hread.bind (hparams.map _) (Nat.zero_le _)
    · have hle := length_le_paramBytes sentinel hleads
      rw [List.length_append, hcount, ← hreads.length_eq]
      omega
  · rw [if_neg hp] at h
    cases h

end Forms

/-- **Every type of the grammar is read back** by a decoder that may go down as many levels. -/
theorem spells_encode (levels : Nat) : SpelledWithin levels := by
  induction levels with
  | zero =>
    -- Even a leaf takes a level.
    intro t v bs _ hlevels
    cases t <;> simp [TypeSig.levels] at hlevels
  | succ levels ih =>
    intro t v bs h hlevels hplaced
    cases t with
    | prim p =>
      rw [encode] at h
      by_cases hp : p = .systemType
      · rw [if_pos hp] at h
        cases h
      · rw [if_neg hp] at h
        obtain rfl := Except.ok.inj h
        refine ⟨.prim p, rfl, reads_typeWithin v (code_lt p) fun at_ => ?_⟩
        rw [typeBody_prim _ _ _ (fun hvoid => hplaced (congrArg prim hvoid)) hp]
        exact reads_pure _
    | named tok isValue =>
      rw [encode] at h
      obtain ⟨token, htoken, rfl⟩ := Except.map_ok h
      refine ⟨.named tok isValue, rfl, reads_typeWithin v (classTag_lt isValue) fun at_ => ?_⟩
      rw [typeBody_named]
      exact (reads_token htoken).map _
    | inst tok isValue args => exact ih.inst v h (Nat.le_of_succ_le_succ hlevels) hplaced.2
    | array elem rank sizes lower => exact ih.array v h (Nat.le_of_succ_le_succ hlevels) hplaced.2
    | szArray elem =>
      rw [encode] at h
      obtain ⟨bytes, hbytes, rfl⟩ := Except.map_ok h
      have helem := ih elem false bytes hbytes (Nat.le_of_succ_le_succ hlevels) hplaced.2
      exact helem.wrap v (by decide) (fun t => by rw [bare]) fun at_ => typeBody_szArray _ v at_
    | pointer elem =>
      rw [encode] at h
      obtain ⟨bytes, hbytes, rfl⟩ := Except.map_ok h
      have helem := ih elem true bytes hbytes (Nat.le_of_succ_le_succ hlevels) hplaced.2
      exact helem.wrap v (by decide) (fun t => by rw [bare]) fun at_ => typeBody_pointer _ v at_
    | byRef elem =>
      rw [encode] at h
      obtain ⟨bytes, hbytes, rfl⟩ := Except.map_ok h
      have helem := ih elem false bytes hbytes (Nat.le_of_succ_le_succ hlevels) hplaced.2
      exact helem.wrap v (by decide) (fun t => by rw [bare]) fun at_ => typeBody_byRef _ v at_
    | pinned elem =>
      rw [encode] at h
      obtain ⟨bytes, hbytes, rfl⟩ := Except.map_ok h
      have helem := ih elem false bytes hbytes (Nat.le_of_succ_le_succ hlevels) hplaced.2
      exact helem.wrap v (by decide) (fun t => by rw [bare]) fun at_ => typeBody_pinned _ v at_
    | modified required tok elem =>
      exact ih.modified v h (Nat.le_of_succ_le_succ hlevels) hplaced.2
    | typeVar index =>
      rw [encode] at h
      obtain ⟨bytes, hbytes, rfl⟩ := Except.map_ok h
      refine ⟨.typeVar index, rfl, reads_typeWithin v (by decide) fun at_ => ?_⟩
      rw [typeBody_typeVar]
      exact (reads_compressed _ hbytes).map _
    | methodVar index =>
      rw [encode] at h
      obtain ⟨bytes, hbytes, rfl⟩ := Except.map_ok h
      refine ⟨.methodVar index, rfl, reads_typeWithin v (by decide) fun at_ => ?_⟩
      rw [typeBody_methodVar]
      exact (reads_compressed _ hbytes).map _
    | fnPtr head ret params sentinel complete stored =>
      exact ih.fnPtr v h (Nat.le_of_succ_le_succ hlevels) hplaced.2.1 hplaced.2.2

end TypeSig

end ManagedImage
