/-
The signatures of members and their forms.

A method, a field, a property, local variables and the arguments of a method
instantiation are five forms over one grammar of types. Each is written here as
its decoder reads it: a lead byte, the counts, the types. A count is refused unless
a byte follows for each thing it counts; every type has at least one
(`Leads.ne_nil`), and a sentinel only adds to them, so the guard is met by what is
written and never by the suffix.

The lead bytes keep the forms apart: the low four bits are those of one form only
(`nibbles_disjoint`), and a decoder that accepts a blob has seen them in its first
byte (`MemberForm.accepts_lead`).
-/
import ManagedImage.Signature.Member
import ManagedImage.Proofs.Signature.Types

set_option autoImplicit false

namespace ManagedImage

open Decode

/-! ## What is written -/

/-- The type is one of the grammar: it nests no deeper than types may, and has void only where it
is allowed. -/
def TypeSig.Proper (v : Bool) (t : TypeSig) : Prop := t.levels ≤ 64 ∧ t.Everywhere VoidPlaced v

/-- A method signature with its parameters. `sentinel` counts those before the variable ones. -/
structure MethodForm where
  head : MethodHead
  ret : TypeSig
  params : List TypeSig
  sentinel : Option Nat

namespace MethodForm

/-- The bytes of a method signature. A sentinel stands in front of a parameter. -/
def encode (origin : Origin) (f : MethodForm) : Except Fault (List UInt8) :=
  if f.head.paramCount = f.params.length ∧ ∀ n, f.sentinel = some n → n < f.params.length then do
    let head ← f.head.encode origin
    let ret ← f.ret.encode
    let pieces ← TypeSig.encodeAll f.params
    return head ++ (ret ++ paramBytes f.sentinel pieces)
  else .error .unwritable

/-- The parameters in order, the sentinel in its place. -/
def entries (f : MethodForm) : List ParamEntry := ParamList.entries ⟨f.params, f.sentinel, none⟩

end MethodForm

/-- The five forms of signatures with a lead byte. -/
inductive MemberForm where
  | method
  | field
  | property
  | locals
  | methodSpec
deriving DecidableEq

/-- A signature of one of the forms. -/
inductive MemberSig where
  | method (origin : Origin) (f : MethodForm)
  | field (t : TypeSig)
  | property (hasThis : Bool) (t : TypeSig) (params : List TypeSig)
  | locals (ts : List TypeSig)
  | methodSpec (ts : List TypeSig)

/-- The lead byte of a property. -/
def propertyLead (hasThis : Bool) : Nat := Lead.property + if hasThis then Lead.instanceFlag else 0

namespace MemberSig

/-- The bytes of a signature. -/
def encode : MemberSig → Except Fault (List UInt8)
  | .method origin f => f.encode origin
  | .field t => do return UInt8.ofNat Lead.field :: (← t.encode)
  | .property hasThis t params => do
    let count ← Compressed.encode params.length
    let type ← t.encode
    let pieces ← TypeSig.encodeAll params
    return UInt8.ofNat (propertyLead hasThis) :: (count ++ (type ++ pieces.flatten))
  | .locals ts => do
    return UInt8.ofNat Lead.locals :: (← countedBytes (← TypeSig.encodeAll ts))
  | .methodSpec ts => do
    return UInt8.ofNat Lead.methodSpec :: (← countedBytes (← TypeSig.encodeAll ts))

/-- All types in it are of the grammar. Only the return type of a method may be void. -/
def Proper : MemberSig → Prop
  | .method _ f => f.ret.Proper true ∧ ∀ t ∈ f.params, t.Proper false
  | .field t => t.Proper false
  | .property _ t params => t.Proper false ∧ ∀ u ∈ params, u.Proper false
  | .locals ts | .methodSpec ts => ∀ t ∈ ts, t.Proper false

end MemberSig

/-! ## What is read -/

/-- The type is read as `u`: the same but for the bytes that function pointers keep, and those
give the parameters at each of them. -/
def TypeSig.ReadAs (v : Bool) (t u : TypeSig) : Prop :=
  u.bare = t.bare ∧ u.Everywhere Rereadable v

/-- The entry of a parameter list is read as another one. -/
inductive ParamEntry.ReadAs : ParamEntry → ParamEntry → Prop
  | type {t u : TypeSig} (h : t.ReadAs false u) : ReadAs (.type t) (.type u)
  | sentinel : ReadAs .sentinel .sentinel

/-- A decoded method signature is the one that was written, and so are its parameters when they
are asked for. -/
structure MethodForm.ReadAs (f : MethodForm) (m : MethodSig) : Prop where
  head : m.head = f.head
  ret : f.ret.ReadAs true m.ret
  entries : List.Forall₂ ParamEntry.ReadAs f.entries m.params.entries
  complete : m.params.fault = none
  types : ∃ us, m.paramTypes = .ok us ∧ us.length = f.head.paramCount
    ∧ List.Forall₂ (TypeSig.ReadAs false) f.params us

/-- The decoder of its form gives the signature from the blob. -/
def MemberSig.ReadFrom (blob : List UInt8) : MemberSig → Prop
  | .method origin f => ∃ m, MethodSig.decode origin blob = .ok m ∧ f.ReadAs m
  | .field t => ∃ u, TypeSig.ofField blob = .ok u ∧ t.ReadAs false u
  | .property hasThis t params => ∃ p, PropertySig.decode blob = .ok p ∧ p.hasThis = hasThis
      ∧ t.ReadAs false p.type ∧ List.Forall₂ (TypeSig.ReadAs false) params p.params
  | .locals ts => ∃ us, TypeSig.ofLocals blob = .ok us ∧ List.Forall₂ (TypeSig.ReadAs false) ts us
  | .methodSpec ts =>
    ∃ us, TypeSig.ofMethodSpec blob = .ok us ∧ List.Forall₂ (TypeSig.ReadAs false) ts us

/-- The decoder of the form accepts the blob; for a method, the decoder of any origin. -/
def MemberForm.Accepts (blob : List UInt8) : MemberForm → Prop
  | .method => ∃ origin m, MethodSig.decode origin blob = .ok m
  | .field => ∃ t, TypeSig.ofField blob = .ok t
  | .property => ∃ p, PropertySig.decode blob = .ok p
  | .locals => ∃ ts, TypeSig.ofLocals blob = .ok ts
  | .methodSpec => ∃ ts, TypeSig.ofMethodSpec blob = .ok ts

/-! ## Types -/

namespace TypeSig

variable {v : Bool} {bs : List UInt8}

/-- What is read from some bytes alone was decoded, so its function pointers give their
parameters. -/
theorem rereadable_of_reads {u : TypeSig} (h : Reads 0 (Decode.type v) bs u) :
    u.Everywhere Rereadable v := by
  have hrun := h 0 [] (Nat.le_refl 0)
  obtain ⟨⟨-, hall⟩, -⟩ :=
    repeats_typeWithin maxLevels maxLevels v (Nat.le_refl _) (Nat.le_refl _) _ _ _ hrun
  exact Everywhere.mono (fun _ _ hnode => hnode.2.2) u v hall

theorem Proper.read {t : TypeSig} (ht : t.Proper v) (henc : t.encode = .ok bs) :
    ∃ u, t.ReadAs v u ∧ Leads bs ∧ Reads 0 (Decode.type v) bs u := by
  obtain ⟨u, hbare, hlead, hreads⟩ := spells_encode maxLevels t v bs henc ht.1 ht.2
  exact ⟨u, ⟨hbare, rereadable_of_reads hreads⟩, hlead, hreads⟩

/-- Types that stand one behind the other. -/
theorem read_all {ts : List TypeSig} (hts : ∀ t ∈ ts, t.Proper false) :
    ∀ {pieces : List (List UInt8)}, encodeAll ts = .ok pieces →
      ∃ us, List.Forall₂ (ReadAs false) ts us ∧ (∀ c ∈ pieces, Leads c)
        ∧ List.Forall₂ (Reads 0 (Decode.type false)) pieces us := by
  induction ts with
  | nil =>
    intro pieces h
    obtain rfl := Except.ok.inj h
    exact ⟨[], .nil, List.forall_mem_nil _, .nil⟩
  | cons t ts ih =>
    intro pieces h
    rw [encodeAll] at h
    obtain ⟨c, hc, h⟩ := Except.bind_ok h
    obtain ⟨cs, hcs, rfl⟩ := Except.map_ok h
    obtain ⟨u, hu, hlead, hread⟩ := (hts t List.mem_cons_self).read hc
    obtain ⟨us, hus, hleads, hreads⟩ := ih (fun w hw => hts w (List.mem_cons_of_mem t hw)) hcs
    exact ⟨u :: us, .cons hu hus, List.forall_mem_cons.mpr ⟨hlead, hleads⟩, .cons hread hreads⟩

end TypeSig

/-! ## Whole blobs -/

namespace Decode

variable {α : Type} {x : Decode α} {bs blob : List UInt8} {a : α}

/-- A step that reads a blob gives the same with more behind it. -/
theorem Reads.onBlob (h : Reads 0 x bs a) (s : List UInt8) : Decode.onBlob x (bs ++ s) = .ok a := by
  have hrun : x (Decoder.start (bs ++ s)) = _ := h 0 s (Nat.zero_le _)
  rw [Decode.onBlob, hrun]

theorem onBlob_ok (h : Decode.onBlob x blob = .ok a) :
    ∃ d', x (Decoder.start blob) = .ok a d' := by
  unfold Decode.onBlob at h
  split at h
  · next hrun =>
    cases h
    exact ⟨_, hrun⟩
  · cases h

/-! ### Lead bytes -/

theorem reads_lead {allowed : List Nat} {n : Nat} (hmem : n ∈ allowed) (hn : n < 256)
    (what : String) : Reads 0 (lead allowed what) [UInt8.ofNat n] n := by
  have hbyte : (UInt8.ofNat n).toNat = n := by
    rw [UInt8.toNat_ofNat']
    omega
  refine Reads.after_byte ?_ what
  rw [hbyte, if_pos hmem]
  exact reads_pure n

theorem byte_ok {what : String} {d d' : Decoder} {b : UInt8} (h : byte what d = .ok b d') :
    ∃ rest, d.rest = b :: rest := by
  obtain ⟨offset, - | ⟨c, rest⟩⟩ := d
  · cases h
  · cases h
    exact ⟨rest, rfl⟩

theorem lead_ok {allowed : List Nat} {what : String} {d d' : Decoder} {n : Nat}
    (h : lead allowed what d = .ok n d') :
    ∃ b rest, d.rest = b :: rest ∧ b.toNat ∈ allowed := by
  obtain ⟨b, d₁, hbyte, h⟩ := EStateM.bind_ok h
  obtain ⟨rest, hrest⟩ := byte_ok hbyte
  refine ⟨b, rest, hrest, ?_⟩
  by_contra hnot
  rw [if_neg hnot] at h
  cases h

theorem methodHead_ok {origin : Origin} {d d' : Decoder} {head : MethodHead}
    (h : methodHead origin d = .ok head d') :
    ∃ b rest, d.rest = b :: rest ∧ conventionAllowed origin (b.toNat % 16) = true := by
  rw [methodHead_eq] at h
  obtain ⟨at_, d₁, hoffset, h⟩ := EStateM.bind_ok h
  cases hoffset
  obtain ⟨b, d₂, hbyte, h⟩ := EStateM.bind_ok h
  obtain ⟨rest, hrest⟩ := byte_ok hbyte
  refine ⟨b, rest, hrest, ?_⟩
  by_contra hnot
  rw [if_neg hnot] at h
  cases h

end Decode

/-! ## Reading each form back -/

/-- The entries are read one by one if the types are. -/
theorem ParamList.entries_readAs {ts us : List TypeSig}
    (h : List.Forall₂ (TypeSig.ReadAs false) ts us) (sentinel : Option Nat) :
    List.Forall₂ ParamEntry.ReadAs (ParamList.entries ⟨ts, sentinel, none⟩)
      (ParamList.entries ⟨us, sentinel, none⟩) := by
  have hmap : ∀ {ts us : List TypeSig}, List.Forall₂ (TypeSig.ReadAs false) ts us →
      List.Forall₂ ParamEntry.ReadAs (ts.map .type) (us.map .type) := by
    intro ts us h
    rw [List.forall₂_map_left_iff, List.forall₂_map_right_iff]
    exact h.imp fun _ _ => ParamEntry.ReadAs.type
  cases sentinel with
  | none => exact hmap h
  | some n =>
    have hbefore := hmap (List.forall₂_take n h)
    have hbehind := hmap (List.forall₂_drop n h)
    exact List.rel_append (List.rel_append hbefore (.cons .sentinel .nil)) hbehind

section Forms

variable {bs : List UInt8}

/-- The parameters are found at the front of what is left of the blob. -/
theorem MethodForm.params_read {head : MethodHead} {pieces : List (List UInt8)}
    {us : List TypeSig} {sentinel : Option Nat} (hcount : head.paramCount = us.length)
    (hreads : List.Forall₂ (Reads 0 (Decode.type false)) pieces us)
    (hleads : ∀ c ∈ pieces, Leads c) (hin : ∀ n, sentinel = some n → n < us.length)
    (ret : TypeSig) (s : List UInt8) :
    (MethodSig.mk head ret (paramBytes sentinel pieces ++ s)).params = ⟨us, sentinel, none⟩ := by
  have hrun := Decode.params_paramBytes hreads hleads hin .none rfl 0 s
  simp only [MethodSig.params, Decoder.start, hcount, hrun]
  cases sentinel with
  | none => rfl
  | some n => simp [ParamScan.none]

/-- **A method signature is read back.** The head's guard is met by the parameters themselves, and
the suffix stays behind them. -/
theorem MethodForm.read {origin : Origin} {f : MethodForm} (henc : f.encode origin = .ok bs)
    (hret : f.ret.Proper true) (hparams : ∀ t ∈ f.params, t.Proper false) (s : List UInt8) :
    ∃ m, MethodSig.decode origin (bs ++ s) = .ok m ∧ f.ReadAs m := by
  unfold MethodForm.encode at henc
  split at henc
  · next hcount =>
    obtain ⟨hcount, hin⟩ := hcount
    obtain ⟨headBytes, hhead, henc⟩ := Except.bind_ok henc
    obtain ⟨retBytes, hretBytes, henc⟩ := Except.bind_ok henc
    obtain ⟨pieces, hpieces, rfl⟩ := Except.map_ok henc
    obtain ⟨u, hu, -, hreadRet⟩ := hret.read hretBytes
    obtain ⟨us, hus, hleads, hreads⟩ := TypeSig.read_all hparams hpieces
    rw [hus.length_eq] at hcount hin
    have hguard : f.head.paramCount ≤ (retBytes ++ (paramBytes f.sentinel pieces ++ s)).length := by
      have hle := length_le_paramBytes f.sentinel hleads
      rw [hreads.length_eq, ← hcount] at hle
      simp only [List.length_append]
      omega
    have hrunHead := reads_methodHead hhead 0 _ hguard
    have hrunRet := hreadRet (0 + headBytes.length) (paramBytes f.sentinel pieces ++ s)
      (Nat.zero_le _)
    have hdecode : MethodSig.decode origin
        (headBytes ++ (retBytes ++ paramBytes f.sentinel pieces) ++ s)
          = .ok ⟨f.head, u, paramBytes f.sentinel pieces ++ s⟩ := by
      simp only [MethodSig.decode, Decode.onBlob, Decoder.start, List.append_assoc,
        EStateM.bind_apply, hrunHead, hrunRet, EStateM.get_apply, EStateM.pure_apply]
    have hlist := MethodForm.params_read hcount hreads hleads hin u s
    refine ⟨_, hdecode, rfl, hu, ?_, ?_, us, ?_, hcount.symm, hus⟩
    · rw [hlist]
      exact ParamList.entries_readAs hus f.sentinel
    · rw [hlist]
    · rw [MethodSig.paramTypes, hlist]
  · cases henc

/-- A counted list of types behind its lead byte. -/
theorem TypeSig.read_counted {ts : List TypeSig} {pieces : List (List UInt8)}
    (hts : ∀ t ∈ ts, t.Proper false) (hpieces : TypeSig.encodeAll ts = .ok pieces)
    (hbs : countedBytes pieces = .ok bs) (what : String) {n : Nat} (hn : n < 256) (form : String) :
    ∃ us, List.Forall₂ (TypeSig.ReadAs false) ts us
      ∧ Reads 0 (lead [n] form >>= fun _ => Decode.types what) (UInt8.ofNat n :: bs) us := by
  obtain ⟨us, hus, hleads, hreads⟩ := TypeSig.read_all hts hpieces
  have htypes : Reads 0 (Decode.types what) bs us :=
    reads_counted _ _ hbs hreads fun c hc => (hleads c hc).ne_nil
  exact ⟨us, hus, (reads_lead (List.mem_singleton_self n) hn form).bind htypes (Nat.zero_le _)⟩

theorem PropertySig.read {hasThis : Bool} {t : TypeSig} {params : List TypeSig}
    (henc : (MemberSig.property hasThis t params).encode = .ok bs) (ht : t.Proper false)
    (hparams : ∀ u ∈ params, u.Proper false) (s : List UInt8) :
    ∃ p, PropertySig.decode (bs ++ s) = .ok p ∧ p.hasThis = hasThis ∧ t.ReadAs false p.type
      ∧ List.Forall₂ (TypeSig.ReadAs false) params p.params := by
  unfold MemberSig.encode at henc
  obtain ⟨countBytes, hcount, henc⟩ := Except.bind_ok henc
  obtain ⟨typeBytes, htype, henc⟩ := Except.bind_ok henc
  obtain ⟨pieces, hpieces, rfl⟩ := Except.map_ok henc
  obtain ⟨u, hu, -, hread⟩ := ht.read htype
  obtain ⟨us, hus, hleads, hreads⟩ := TypeSig.read_all hparams hpieces
  rw [hus.length_eq] at hcount
  have hlead := reads_lead
    (show propertyLead hasThis ∈ [Lead.property, Lead.property + Lead.instanceFlag] by
      cases hasThis <;> decide)
    (by cases hasThis <;> decide) "property signature"
  have hflag : decide (propertyLead hasThis ≠ Lead.property) = hasThis := by
    cases hasThis <;> decide
  -- The count is met by the parameters, each of which takes a byte.
  have hguard : us.length ≤ (typeBytes ++ pieces.flatten).length + 0 := by
    have hle := length_le_flatten fun c hc => (hleads c hc).ne_nil
    rw [hreads.length_eq] at hle
    rw [List.length_append]
    omega
  refine ⟨⟨hasThis, u, us⟩, Reads.onBlob ?_ s, rfl, hu, hus⟩
  refine hlead.bind ?_ (Nat.zero_le _)
  rw [hflag]
  refine (reads_count _ _ hcount).bind ?_ hguard
  exact hread.bind ((reads_times hreads).map _) (Nat.zero_le _)

end Forms

/-! ## The forms kept apart -/

namespace MemberForm

/-- The low four bits of a lead byte of the form. -/
def nibbles : MemberForm → List Nat
  | .method => [0, 1, 2, 3, 4, 5, 9]
  | .field => [6]
  | .property => [8]
  | .locals => [7]
  | .methodSpec => [10]

theorem mem_nibbles_of_allowed {origin : Origin} {convention : Nat}
    (h : conventionAllowed origin convention = true) : convention ∈ nibbles .method := by
  simp only [conventionAllowed, Bool.or_eq_true, Bool.and_eq_true, decide_eq_true_eq] at h
  simp only [nibbles, List.mem_cons, List.not_mem_nil]
  omega

/-- A form that accepts a blob has seen one of its own lead bytes. -/
theorem accepts_lead {blob : List UInt8} {f : MemberForm} (h : f.Accepts blob) :
    ∃ b rest, blob = b :: rest ∧ b.toNat % 16 ∈ f.nibbles := by
  have hlead : ∀ {α : Type} {x : Nat → Decode α} {allowed : List Nat} {what : String} {a : α},
      Decode.onBlob (lead allowed what >>= x) blob = .ok a →
      (∀ n ∈ allowed, n % 16 ∈ f.nibbles) →
      ∃ b rest, blob = b :: rest ∧ b.toNat % 16 ∈ f.nibbles := by
    intro α x allowed what a hrun hall
    obtain ⟨d', hrun⟩ := onBlob_ok hrun
    obtain ⟨n, d₁, hn, -⟩ := EStateM.bind_ok hrun
    obtain ⟨b, rest, hblob, hmem⟩ := lead_ok hn
    exact ⟨b, rest, hblob, hall _ hmem⟩
  cases f with
  | method =>
    obtain ⟨origin, m, hrun⟩ := h
    obtain ⟨d', hrun⟩ := onBlob_ok hrun
    obtain ⟨head, d₁, hhead, -⟩ := EStateM.bind_ok hrun
    obtain ⟨b, rest, hblob, hallowed⟩ := methodHead_ok hhead
    exact ⟨b, rest, hblob, mem_nibbles_of_allowed hallowed⟩
  | field =>
    obtain ⟨t, hrun⟩ := h
    exact hlead hrun (by decide)
  | property =>
    obtain ⟨p, hrun⟩ := h
    exact hlead hrun (by decide)
  | locals =>
    obtain ⟨ts, hrun⟩ := h
    exact hlead hrun (by decide)
  | methodSpec =>
    obtain ⟨ts, hrun⟩ := h
    exact hlead hrun (by decide)

theorem nibbles_disjoint {f g : MemberForm} {n : Nat} (hf : n ∈ f.nibbles) (hg : n ∈ g.nibbles) :
    f = g := by
  have hall : ∀ f g : MemberForm, f ≠ g → ∀ n ∈ f.nibbles, n ∉ g.nibbles := by
    intro f g
    cases f <;> cases g <;> decide
  by_contra hne
  exact hall f g hne n hf hg

end MemberForm

/-! ## All forms -/

/-- **Member signatures are read back, and never as another form.** What is written for a signature
of the grammar is read by the decoder of its form to that signature, whatever follows; and no blob
is accepted by the decoders of two forms. -/
theorem members_read_back :
    (∀ (sig : MemberSig) (bs : List UInt8), sig.encode = .ok bs → sig.Proper →
        ∀ suffix, sig.ReadFrom (bs ++ suffix))
      ∧ ∀ (blob : List UInt8) (f g : MemberForm), f.Accepts blob → g.Accepts blob → f = g := by
  constructor
  · intro sig bs henc hproper suffix
    cases sig with
    | method origin f => exact MethodForm.read henc hproper.1 hproper.2 suffix
    | field t =>
      unfold MemberSig.encode at henc
      obtain ⟨typeBytes, htype, rfl⟩ := Except.map_ok henc
      obtain ⟨u, hu, -, hread⟩ := TypeSig.Proper.read hproper htype
      have hlead := reads_lead (List.mem_singleton_self Lead.field) (by decide) "field signature"
      exact ⟨u, (hlead.bind hread (Nat.zero_le _)).onBlob suffix, hu⟩
    | property hasThis t params => exact PropertySig.read henc hproper.1 hproper.2 suffix
    | locals ts =>
      unfold MemberSig.encode at henc
      obtain ⟨pieces, hpieces, henc⟩ := Except.bind_ok henc
      obtain ⟨bytes, hbytes, rfl⟩ := Except.map_ok henc
      obtain ⟨us, hus, hread⟩ := TypeSig.read_counted hproper hpieces hbytes "local"
        (by decide : Lead.locals < 256) "local signature"
      exact ⟨us, hread.onBlob suffix, hus⟩
    | methodSpec ts =>
      unfold MemberSig.encode at henc
      obtain ⟨pieces, hpieces, henc⟩ := Except.bind_ok henc
      obtain ⟨bytes, hbytes, rfl⟩ := Except.map_ok henc
      obtain ⟨us, hus, hread⟩ := TypeSig.read_counted hproper hpieces hbytes "generic argument"
        (by decide : Lead.methodSpec < 256) "method instantiation"
      exact ⟨us, hread.onBlob suffix, hus⟩
  · intro blob f g hf hg
    -- The low half of the first byte tells the forms apart.
    obtain ⟨b, rest, rfl, hbf⟩ := MemberForm.accepts_lead hf
    obtain ⟨c, rest', hcons, hcg⟩ := MemberForm.accepts_lead hg
    obtain ⟨rfl, -⟩ := List.cons.inj hcons
    exact MemberForm.nibbles_disjoint hbf hcg

/-- A call of a generic instance method with a variable argument list: a 32-bit integer and, behind
the sentinel, an array of strings. It returns a pointer to void. -/
def varargCall : MemberSig :=
  .method .memberRef ⟨⟨true, false, 5, true, some 1, 2⟩, .pointer (.prim .void),
    [.prim .i4, .szArray (.prim .string)], some 1⟩

theorem members_read_back_varargCall :
    varargCall.ReadFrom ([0x35, 0x01, 0x02, 0x0F, 0x01, 0x08, 0x41, 0x1D, 0x0E] ++ [0xFF])
      ∧ ¬ MemberForm.field.Accepts
          [0x35, 0x01, 0x02, 0x0F, 0x01, 0x08, 0x41, 0x1D, 0x0E, 0xFF] := by
  have henc : varargCall.encode
      = .ok [0x35, 0x01, 0x02, 0x0F, 0x01, 0x08, 0x41, 0x1D, 0x0E] := rfl
  have hproper : varargCall.Proper := by
    simp [varargCall, MemberSig.Proper, TypeSig.Proper, TypeSig.levels, TypeSig.Everywhere,
      TypeSig.VoidPlaced]
  have hread := members_read_back.1 varargCall _ henc hproper [0xFF]
  refine ⟨hread, fun hfield => ?_⟩
  obtain ⟨m, hm, -⟩ := hread
  exact absurd (members_read_back.2 _ .method .field ⟨.memberRef, m, hm⟩ hfield) (by decide)

end ManagedImage
