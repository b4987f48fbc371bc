/-
Steps that read what stands before them.

`Reads need x bs a` says of a step that it reads exactly `bs`, to the value `a`,
wherever it starts and whatever follows, as long as `need` more bytes follow. Only
a count asks for bytes behind it: one for each thing it counts. Once the things
have been read too, nothing is asked of the rest (`Reads.bind`).
-/
import ManagedImage.Proofs.Bytes.Compressed
import ManagedImage.Proofs.Metadata.CodedIndex
import ManagedImage.Proofs.Results
import ManagedImage.Proofs.Signature.Grammar
import Mathlib.Data.List.Forall2

set_option autoImplicit false

namespace ManagedImage

/-- **The token of a type is read back**, whatever follows. -/
theorem Token.decodeType_encodeType {tok : Token} {bs : List UInt8} (h : tok.encodeType = .ok bs)
    (s : List UInt8) : Token.decodeType (bs ++ s) = .ok (tok, bs.length) := by
  obtain ⟨v, hv, hbs⟩ := Except.bind_ok h
  have hdecode := Compressed.decode_encode hbs s
  have htok := CodedKind.decode_encode hv
  simp only [Token.decodeType, Bind.bind, Except.bind, hdecode, htok]

namespace Decode

variable {α β : Type} {m n : Nat} {bs cs : List UInt8}

/-- The step reads exactly these bytes, to this value, if so many bytes follow. -/
def Reads (need : Nat) (x : Decode α) (bs : List UInt8) (a : α) : Prop :=
  ∀ (offset : Nat) (s : List UInt8), need ≤ s.length →
    x ⟨offset, bs ++ s⟩ = .ok a ⟨offset + bs.length, s⟩

/-! ## Sequences -/

theorem reads_pure (a : α) : Reads 0 (pure a) [] a := fun _ _ _ => rfl

/-- What the first step needs may be read by the second. -/
theorem Reads.bind {x : Decode α} {f : α → Decode β} {a : α} {b : β} (hx : Reads m x bs a)
    (hf : Reads n (f a) cs b) (hle : m ≤ cs.length + n) : Reads n (x >>= f) (bs ++ cs) b := by
  intro offset s hs
  have hfirst := hx offset (cs ++ s) (by rw [List.length_append]; omega)
  have hsecond := hf (offset + bs.length) s hs
  rw [Nat.add_assoc, ← List.length_append] at hsecond
  simp only [EStateM.bind_apply, List.append_assoc, hfirst, hsecond]

theorem Reads.map {x : Decode α} {a : α} (hx : Reads n x bs a) (g : α → β) :
    Reads n (x >>= fun a => pure (g a)) bs (g a) := by
  intro offset s hs
  simp only [EStateM.bind_apply, hx offset s hs]
  rfl

theorem Reads.of_offset {f : Nat → Decode α} {a : α} (h : ∀ offset, Reads n (f offset) bs a) :
    Reads n (Decode.offset >>= f) bs a := fun o s hs => h o o s hs

/-! ## Bytes and numbers -/

theorem reads_byte (b : UInt8) (what : String) : Reads 0 (byte what) [b] b := fun _ _ _ => rfl

theorem Reads.after_byte {f : UInt8 → Decode α} {b : UInt8} {a : α} (h : Reads n (f b) bs a)
    (what : String) : Reads n (byte what >>= f) (b :: bs) a :=
  (reads_byte b what).bind h (Nat.zero_le _)

theorem reads_compressed (what : String) (h : Compressed.encode n = .ok bs) :
    Reads 0 (compressed what) bs n := by
  intro offset s _
  have hscan := Compressed.scan_encode h s
  simp only [compressed, EStateM.bind_apply, EStateM.get_apply, hscan, EStateM.set_apply,
    Decoder.advance, List.drop_left]
  rfl

theorem reads_ahead {look : List UInt8 → Except Fault (α × Nat)} {a : α}
    (h : ∀ s, look (bs ++ s) = .ok (a, bs.length)) : Reads 0 (ahead look) bs a := by
  intro offset s _
  simp only [ahead, EStateM.bind_apply, EStateM.get_apply, h s, EStateM.set_apply, Decoder.advance,
    List.drop_left]
  rfl

theorem reads_signed {v : Int} (h : Compressed.encodeSigned v = .ok bs) : Reads 0 signed bs v :=
  reads_ahead (Compressed.decodeSigned_encodeSigned h)

theorem reads_token {tok : Token} (h : tok.encodeType = .ok bs) : Reads 0 token bs tok :=
  reads_ahead (Token.decodeType_encodeType h)

/-- A count needs a byte behind it for each thing it counts. -/
theorem reads_count (what things : String) (h : Compressed.encode n = .ok bs) :
    Reads n (count what things) bs n := by
  intro offset s hs
  have hread := reads_compressed what h offset s (Nat.zero_le _)
  have hnot : ¬ Decoder.remaining ⟨offset + bs.length, s⟩ < n := Nat.not_lt.mpr hs
  simp only [count, EStateM.bind_apply, hread, EStateM.get_apply]
  rw [if_neg hnot]
  rfl

/-! ## Lists -/

/-- A step that reads each piece reads all of them, one after the other. -/
theorem reads_times {step : Decode α} {pieces : List (List UInt8)} {as : List α}
    (h : List.Forall₂ (Reads 0 step) pieces as) :
    Reads 0 (times step as.length) pieces.flatten as := by
  induction h with
  | nil => exact reads_pure []
  | cons hfirst _ ih =>
    rw [List.flatten_cons]
    exact hfirst.bind (ih.map _) (Nat.zero_le _)

theorem length_le_flatten {pieces : List (List UInt8)} (h : ∀ c ∈ pieces, c ≠ []) :
    pieces.length ≤ pieces.flatten.length := by
  induction pieces with
  | nil => exact Nat.le_refl 0
  | cons c rest ih =>
    have hc := List.length_pos_iff.mpr (h c List.mem_cons_self)
    have hrest := ih fun d hd => h d (List.mem_cons_of_mem c hd)
    rw [List.flatten_cons, List.length_append, List.length_cons]
    omega

/-- **A counted list is read back**, if no piece of it is empty. -/
theorem reads_counted (what things : String) {step : Decode α} {pieces : List (List UInt8)}
    {as : List α} (hbs : countedBytes pieces = .ok bs) (h : List.Forall₂ (Reads 0 step) pieces as)
    (hne : ∀ c ∈ pieces, c ≠ []) : Reads 0 (counted what things step) bs as := by
  obtain ⟨count, hcount, rfl⟩ := Except.map_ok hbs
  rw [h.length_eq] at hcount
  -- The count wants a byte for each piece, and no piece is empty.
  refine (reads_count what things hcount).bind (reads_times h) ?_
  have hle := length_le_flatten hne
  rw [h.length_eq] at hle
  exact hle

/-- What holds of every single piece holds of pieces written one by one. -/
theorem forall₂_of_encodeEach {encode : α → Except Fault (List UInt8)}
    {P : List UInt8 → α → Prop} {as : List α} (hP : ∀ a ∈ as, ∀ c, encode a = .ok c → P c a) :
    ∀ {pieces : List (List UInt8)}, encodeEach encode as = .ok pieces →
      List.Forall₂ P pieces as := by
  induction as with
  | nil =>
    intro pieces h
    obtain rfl := Except.ok.inj h
    exact List.Forall₂.nil
  | cons a rest ih =>
    intro pieces h
    rw [encodeEach] at h
    obtain ⟨c, hc, h⟩ := Except.bind_ok h
    obtain ⟨cs, hcs, rfl⟩ := Except.map_ok h
    refine List.Forall₂.cons (hP a List.mem_cons_self c hc) (ih (fun b hb => ?_) hcs)
    exact hP b (List.mem_cons_of_mem a hb)

/-! ## Heads of method signatures -/

/-- What a lead byte says. -/
theorem leadByte_toNat {convention : Nat} (h : convention < 16)
    (generic hasThis explicitThis : Bool) :
    (leadByte convention generic hasThis explicitThis).toNat % 16 = convention
      ∧ (leadByte convention generic hasThis explicitThis).toNat.testBit 4 = generic
      ∧ (leadByte convention generic hasThis explicitThis).toNat.testBit 5 = hasThis
      ∧ (leadByte convention generic hasThis explicitThis).toNat.testBit 6 = explicitThis := by
  -- Sixteen conventions and three flags: all lead bytes there are.
  have hall : ∀ c < 16, ∀ g t e : Bool, (leadByte c g t e).toNat % 16 = c
      ∧ (leadByte c g t e).toNat.testBit 4 = g ∧ (leadByte c g t e).toNat.testBit 5 = t
      ∧ (leadByte c g t e).toNat.testBit 6 = e := by decide
  exact hall convention h generic hasThis explicitThis

/-- The generic count of a head, where there is one. -/
def genericCount (origin : Origin) (generic : Bool) : Decode (Option Nat) :=
  if generic && origin ≠ .standAlone then some <$> compressed "generic parameter count"
  else pure none

/-- What a head says after its lead byte. -/
def afterLead (origin : Origin) (lead : Nat) : Decode MethodHead := do
  let generics ← genericCount origin (lead.testBit 4)
  let paramCount ← count "parameter count" "parameters"
  return ⟨lead.testBit 5, lead.testBit 6, lead % 16, lead.testBit 4, generics, paramCount⟩

theorem methodHead_eq (origin : Origin) :
    methodHead origin = Decode.offset >>= fun at_ => byte "method signature" >>= fun b =>
      if conventionAllowed origin (b.toNat % 16) then afterLead origin b.toNat
      else throw (.format .signature at_
        ("invalid method signature lead byte 0x" ++ hexPad 2 b.toNat : String)) := by
  unfold methodHead
  refine congrArg (Decode.offset >>= ·) (funext fun at_ => ?_)
  refine congrArg (byte "method signature" >>= ·) (funext fun b => ?_)
  dsimp only
  cases hallowed : conventionAllowed origin (b.toNat % 16) with
  | true =>
    unfold afterLead genericCount
    cases hgeneric : b.toNat.testBit 4 && decide (origin ≠ .standAlone) with
    | true => rfl
    | false => rfl
  | false => rfl

theorem reads_genericCount {origin : Origin} {generic : Bool} {generics : Option Nat}
    (h : optionalCount generics = .ok bs)
    (hsome : generics.isSome = (generic && origin ≠ .standAlone)) :
    Reads 0 (genericCount origin generic) bs generics := by
  unfold genericCount
  rw [← hsome]
  cases generics with
  | none =>
    obtain rfl := Except.ok.inj h
    exact reads_pure none
  | some n => exact (reads_compressed _ h).map some

/-- **A head is read back**, if a byte follows for each parameter. -/
theorem reads_methodHead {origin : Origin} {head : MethodHead} (h : head.encode origin = .ok bs) :
    Reads head.paramCount (methodHead origin) bs head := by
  unfold MethodHead.encode at h
  by_cases hgood : conventionAllowed origin head.convention
      ∧ head.genericCount.isSome = (head.generic && origin ≠ .standAlone)
  · rw [if_pos hgood] at h
    obtain ⟨generics, hgenerics, h⟩ := Except.bind_ok h
    obtain ⟨number, hnumber, rfl⟩ := Except.map_ok h
    obtain ⟨hallowed, hsome⟩ := hgood
    -- Every convention that is allowed is a nibble.
    have hlt : head.convention < 16 := by
      unfold conventionAllowed at hallowed
      simp only [Bool.or_eq_true, Bool.and_eq_true, decide_eq_true_eq] at hallowed
      omega
    obtain ⟨hconvention, hgeneric, hthis, hexplicit⟩ :=
      leadByte_toNat hlt head.generic head.hasThis head.explicitThis
    rw [methodHead_eq]
    refine Reads.of_offset fun o => ?_
    refine Reads.after_byte ?_ _
    rw [hconvention, if_pos hallowed, afterLead, hconvention, hgeneric, hthis, hexplicit]
    refine (reads_genericCount hgenerics hsome).bind ?_ (Nat.zero_le _)
    have hcount := reads_count "parameter count" "parameters" hnumber
    exact hcount.map _
  · rw [if_neg hgood] at h
    cases h

end Decode

end ManagedImage
