/-
What was read once is read again from the same bytes.

`Repeats` is a statement about every success of a step `x`: it has read some
bytes, and a step `y` reads those same bytes to the same value, wherever they stand
and whatever follows. Taking for `y` a decoder that may go down further than `x`
is what a function pointer needs, whose parameters are read again from the top.

A count is the one step that looks at more than it reads, and so `Repeats` carries
how many bytes must follow, and how many a step reads at least: the things that
are counted make up for what the count asked for.
-/
import ManagedImage.Proofs.Signature.Decoding

set_option autoImplicit false

namespace ManagedImage.Decode

variable {α β : Type} {x y : Decode α} {need : α → Nat} {least : Nat} {P Q : α → Prop}

/-- The step from `d` to `d'` has read `bs`, and `y` reads them to the same value. -/
structure Repeated (y : Decode α) (after least : Nat) (d : Decoder) (a : α) (d' : Decoder)
    (bs : List UInt8) : Prop where
  rest : d.rest = bs ++ d'.rest
  offset : d'.offset = d.offset + bs.length
  atLeast : least ≤ bs.length
  followed : after ≤ d'.rest.length
  reads : Reads after y bs a

/-- Whatever `x` reads has the property `P`, and `y` reads it again. -/
def Repeats (need : α → Nat) (least : Nat) (P : α → Prop) (x y : Decode α) : Prop :=
  ∀ d a d', x d = .ok a d' → P a ∧ ∃ bs, Repeated y (need a) least d a d' bs

/-! ## Sequences -/

theorem repeats_pure {a : α} (h : P a) : Repeats (fun _ => 0) 0 P (pure a) (pure a) := by
  intro d b d' hrun
  obtain ⟨rfl, rfl⟩ := EStateM.Result.ok.inj hrun
  exact ⟨h, [], rfl, rfl, Nat.zero_le _, Nat.zero_le _, reads_pure a⟩

theorem repeats_throw (f : Fault) (y : Decode α) : Repeats need least P (throw f) y := by
  intro d a d' hrun
  cases hrun

/-- What the first step needs behind it is made up for by what the second reads at least. -/
theorem Repeats.bind_atLeast {f g : α → Decode β} {need' : β → Nat} {k : α → Nat} {all : Nat}
    {P' : β → Prop} (hx : Repeats need least P x y)
    (hf : ∀ a, P a → Repeats need' (k a) P' (f a) (g a)) (hneed : ∀ a, need a ≤ k a)
    (hall : ∀ a, all ≤ least + k a) : Repeats need' all P' (x >>= f) (y >>= g) := by
  intro d b d'' hrun
  obtain ⟨a, d', hfirst, hsecond⟩ := EStateM.bind_ok hrun
  obtain ⟨ha, bs, hbs⟩ := hx d a d' hfirst
  obtain ⟨hb, cs, hcs⟩ := hf a ha d' b d'' hsecond
  have hle := Nat.le_trans (hneed a) hcs.atLeast
  have hb₁ := hbs.atLeast
  have hc₁ := hcs.atLeast
  have hall₁ := hall a
  refine ⟨hb, bs ++ cs, ?_, ?_, ?_, hcs.followed,
    hbs.reads.bind hcs.reads (Nat.le_add_right_of_le hle)⟩
  · rw [hbs.rest, hcs.rest, List.append_assoc]
  · rw [hcs.offset, hbs.offset, List.length_append, Nat.add_assoc]
  · rw [List.length_append]
    omega

theorem Repeats.bind {f g : α → Decode β} {need' : β → Nat} {k : α → Nat} {P' : β → Prop}
    (hx : Repeats need least P x y) (hf : ∀ a, P a → Repeats need' (k a) P' (f a) (g a))
    (hneed : ∀ a, need a ≤ k a) : Repeats need' least P' (x >>= f) (y >>= g) :=
  hx.bind_atLeast hf hneed fun _ => Nat.le_add_right _ _

theorem Repeats.atLeast {m : Nat} (hx : Repeats need least P x y) (hm : m ≤ least) :
    Repeats need m P x y := by
  intro d a d' hrun
  obtain ⟨ha, bs, hbs⟩ := hx d a d' hrun
  exact ⟨ha, bs, hbs.rest, hbs.offset, Nat.le_trans hm hbs.atLeast, hbs.followed, hbs.reads⟩

theorem Repeats.map {need' : β → Nat} {P' : β → Prop} (hx : Repeats need least P x y) (g : α → β)
    (hneed : ∀ a, need' (g a) = need a) (hP : ∀ a, P a → P' (g a)) :
    Repeats need' least P' (x >>= fun a => pure (g a)) (y >>= fun a => pure (g a)) := by
  intro d b d'' hrun
  obtain ⟨a, d', hfirst, hpure⟩ := EStateM.bind_ok hrun
  obtain ⟨rfl, rfl⟩ := EStateM.Result.ok.inj hpure
  obtain ⟨ha, bs, hbs⟩ := hx d a d' hfirst
  rw [hneed a]
  exact ⟨hP a ha, bs, hbs.rest, hbs.offset, hbs.atLeast, hbs.followed, hbs.reads.map g⟩

/-- Two properties of one step, from two ways of reading again. -/
theorem Repeats.and {z : Decode α} {need' : α → Nat} {least' : Nat} (hx : Repeats need least P x y)
    (hz : Repeats need' least' Q x z) : Repeats need least (fun a => P a ∧ Q a) x y := by
  intro d a d' hrun
  obtain ⟨ha, hbs⟩ := hx d a d' hrun
  exact ⟨⟨ha, (hz d a d' hrun).1⟩, hbs⟩

/-- The offset only goes into faults. -/
theorem Repeats.of_offset {f g : Nat → Decode α} (h : ∀ o o', Repeats need least P (f o) (g o')) :
    Repeats need least P (Decode.offset >>= f) (Decode.offset >>= g) := by
  intro d a d' hrun
  obtain ⟨ha, bs, hbs⟩ := h d.offset d.offset d a d' hrun
  refine ⟨ha, bs, hbs.rest, hbs.offset, hbs.atLeast, hbs.followed, Reads.of_offset fun o => ?_⟩
  obtain ⟨-, cs, hcs⟩ := h d.offset o d a d' hrun
  -- Both have read the same bytes, since what is left is the same.
  have heq : cs = bs := List.append_cancel_right (hcs.rest.symm.trans hbs.rest)
  rw [← heq]
  exact hcs.reads

/-! ## Bytes and numbers -/

theorem repeats_byte (what : String) :
    Repeats (fun _ => 0) 1 (fun _ => True) (byte what) (byte what) := by
  rintro ⟨offset, rest⟩ b d' hrun
  rcases rest with - | ⟨c, rest⟩
  · cases hrun
  · obtain ⟨rfl, rfl⟩ := EStateM.Result.ok.inj hrun
    exact ⟨trivial, [c], rfl, rfl, Nat.le_refl 1, Nat.zero_le _, reads_byte c what⟩

theorem Repeats.after_byte {f g : UInt8 → Decode α} (h : ∀ b, Repeats need 0 P (f b) (g b))
    (what : String) : Repeats need 1 P (byte what >>= f) (byte what >>= g) :=
  (repeats_byte what).bind (fun b _ => h b) fun _ => Nat.le_refl 0

theorem repeats_compressed (what : String) :
    Repeats (fun _ => 0) 1 (fun _ => True) (compressed what) (compressed what) := by
  rintro ⟨offset, rest⟩ v d' hrun
  simp only [compressed, EStateM.bind_apply, EStateM.get_apply] at hrun
  cases hscan : Compressed.scan rest with
  | fault f used =>
    rw [hscan] at hrun
    cases hrun
  | value w used =>
    rw [hscan] at hrun
    obtain ⟨rfl, rfl⟩ := EStateM.Result.ok.inj hrun
    obtain ⟨hpos, hle, htake⟩ := Compressed.scan_take hscan
    have hlength : (rest.take used).length = used := by
      rw [List.length_take, Nat.min_eq_left hle]
    refine ⟨trivial, rest.take used, (List.take_append_drop used rest).symm, ?_, ?_, Nat.zero_le _, ?_⟩
    · rw [hlength]
      rfl
    · rw [hlength]
      exact hpos
    · intro o s _
      simp only [compressed, EStateM.bind_apply, EStateM.get_apply, htake s, EStateM.set_apply,
        Decoder.advance, hlength]
      rw [List.drop_left' hlength]
      rfl

/-- A look ahead that finds the same in the bytes it has used. -/
theorem repeats_ahead {look : List UInt8 → Except Fault (α × Nat)}
    (h : ∀ bs a used, look bs = .ok (a, used) → P a ∧ 0 < used ∧ used ≤ bs.length
      ∧ ∀ s, look (bs.take used ++ s) = .ok (a, used)) :
    Repeats (fun _ => 0) 1 P (ahead look) (ahead look) := by
  rintro ⟨offset, rest⟩ a d' hrun
  simp only [ahead, EStateM.bind_apply, EStateM.get_apply] at hrun
  cases hlook : look rest with
  | error f =>
    rw [hlook] at hrun
    cases hrun
  | ok r =>
    obtain ⟨b, used⟩ := r
    rw [hlook] at hrun
    obtain ⟨rfl, rfl⟩ := EStateM.Result.ok.inj hrun
    obtain ⟨ha, hpos, hle, htake⟩ := h rest _ used hlook
    have hlength : (rest.take used).length = used := by
      rw [List.length_take, Nat.min_eq_left hle]
    refine ⟨ha, rest.take used, (List.take_append_drop used rest).symm, ?_, ?_, Nat.zero_le _, ?_⟩
    · rw [hlength]
      rfl
    · rw [hlength]
      exact hpos
    · refine reads_ahead fun s => ?_
      rw [htake s, hlength]

theorem repeats_signed : Repeats (fun _ => 0) 1 (fun _ => True) signed signed :=
  repeats_ahead fun _ _ _ h => ⟨trivial, Compressed.decodeSigned_take h⟩

theorem decodeType_ok {bs : List UInt8} {tok : Token} {used : Nat}
    (h : Token.decodeType bs = .ok (tok, used)) :
    ∃ v, Compressed.decode bs = .ok (some v, used) ∧ CodedKind.typeDefOrRef.decode v = .ok tok := by
  obtain ⟨⟨v?, n⟩, hdecode, h⟩ := Except.bind_ok h
  cases v? with
  | none => cases h
  | some v =>
    dsimp only at h
    cases hcoded : CodedKind.typeDefOrRef.decode v with
    | error f =>
      rw [hcoded] at h
      cases h
    | ok t =>
      rw [hcoded] at h
      obtain ⟨rfl, rfl⟩ := Prod.mk.inj (Except.ok.inj h)
      exact ⟨v, hdecode, hcoded⟩

theorem repeats_token : Repeats (fun _ => 0) 1 Token.IsType token token := by
  refine repeats_ahead fun bs tok used h => ?_
  obtain ⟨v, hdecode, hcoded⟩ := decodeType_ok h
  obtain ⟨hpos, hle, htake⟩ := Compressed.decode_take hdecode
  refine ⟨?_, hpos, hle, fun s => ?_⟩
  · obtain ⟨t, ht, htable⟩ := CodedKind.decode_eq_ok hcoded
    have hmem : t = .typeDef ∨ t = .typeRef ∨ t = .typeSpec := by
      simpa [CodedKind.tables, CodedKind.slots] using ht
    unfold Token.IsType
    rw [htable]
    rcases hmem with rfl | rfl | rfl
    · exact Or.inl rfl
    · exact Or.inr (Or.inl rfl)
    · exact Or.inr (Or.inr rfl)
  · simp only [Token.decodeType, Bind.bind, Except.bind, htake s, hcoded]

/-- A count is read again where as many bytes follow. -/
theorem repeats_count (what things : String) :
    Repeats id 1 (fun _ => True) (count what things) (count what things) := by
  intro d n d' hrun
  obtain ⟨m, e, hfirst, hrest⟩ := EStateM.bind_ok hrun
  obtain ⟨-, bs, hbs⟩ := repeats_compressed what d m e hfirst
  simp only [EStateM.bind_apply, EStateM.get_apply] at hrest
  by_cases hlt : e.remaining < m
  · rw [if_pos hlt] at hrest
    cases hrest
  · rw [if_neg hlt] at hrest
    obtain ⟨rfl, rfl⟩ := EStateM.Result.ok.inj hrest
    refine ⟨trivial, bs, hbs.rest, hbs.offset, hbs.atLeast, Nat.not_lt.mp hlt, fun o s hs => ?_⟩
    have hread := hbs.reads o s (Nat.zero_le _)
    have hnot : ¬ Decoder.remaining ⟨o + bs.length, s⟩ < m := Nat.not_lt.mpr hs
    simp only [count, EStateM.bind_apply, hread, EStateM.get_apply]
    rw [if_neg hnot]
    rfl

/-! ## Lists -/

theorem repeats_times (h : Repeats (fun _ => 0) 1 P x y) (n : Nat) :
    Repeats (fun _ => 0) n (fun as => ∀ a ∈ as, P a) (times x n) (times y n) := by
  induction n with
  | zero => exact repeats_pure (List.forall_mem_nil P)
  | succ n ih =>
    -- Each of them takes a byte, so together they take as many as there are.
    refine h.bind_atLeast (k := fun _ => n) (fun a ha => ?_) (fun _ => Nat.zero_le n) fun _ => ?_
    · refine ih.map (a :: ·) (fun _ => rfl) fun as has b hb => ?_
      rcases List.mem_cons.mp hb with rfl | hrest
      · exact ha
      · exact has b hrest
    · omega

theorem repeats_counted (what things : String) (h : Repeats (fun _ => 0) 1 P x y) :
    Repeats (fun _ => 0) 1 (fun as => ∀ a ∈ as, P a) (counted what things x)
      (counted what things y) :=
  (repeats_count what things).bind (fun n _ => repeats_times h n) fun n => Nat.le_refl n

/-! ## Heads and parameters -/

theorem repeats_genericCount (origin : Origin) (generic : Bool) :
    Repeats (fun _ => 0) 0 (fun _ => True) (genericCount origin generic)
      (genericCount origin generic) := by
  unfold genericCount
  split
  · have hcount := repeats_compressed "generic parameter count"
    exact (hcount.map some (fun _ => rfl) fun _ _ => trivial).atLeast (Nat.zero_le 1)
  · exact repeats_pure trivial

/-- A head is read again where a byte follows for each parameter. -/
theorem repeats_methodHead (origin : Origin) :
    Repeats MethodHead.paramCount 1 (fun _ => True) (methodHead origin) (methodHead origin) := by
  rw [methodHead_eq]
  refine Repeats.of_offset fun o o' => ?_
  refine Repeats.after_byte (fun b => ?_) "method signature"
  split
  · refine (repeats_genericCount origin _).bind (k := fun _ => 1) (fun g _ => ?_) fun _ => by decide
    exact (repeats_count _ _).map _ (fun _ => rfl) fun _ _ => trivial
  · exact repeats_throw _ _

/-- Every success of reading parameters is repeated, whatever was read before them. -/
theorem params_repeats {P : TypeSig → Prop} {x y : Decode TypeSig}
    (h : Repeats (fun _ => 0) 1 P x y) (n : Nat) :
    ∀ {scan scan' : ParamScan} {d d' : Decoder}, params x n scan d = (.ok (), scan', d') →
      ((∀ t ∈ scan.types, P t) → ∀ t ∈ scan'.types, P t)
        ∧ ∃ bs, d.rest = bs ++ d'.rest ∧ d'.offset = d.offset + bs.length ∧ n ≤ bs.length
          ∧ ∀ offset s, params y n scan ⟨offset, bs ++ s⟩
            = (.ok (), scan', ⟨offset + bs.length, s⟩) := by
  induction n with
  | zero =>
    intro scan scan' d d' hrun
    obtain ⟨rfl, rfl⟩ := Prod.mk.inj (Prod.mk.inj hrun).2
    exact ⟨id, [], rfl, rfl, Nat.le_refl 0, fun _ _ => rfl⟩
  | succ n ih =>
    intro scan scan' d d'' hrun
    obtain ⟨scan₁, d₁, t, d₂, hstart, hx, hothers⟩ := params_succ_ok hrun
    obtain ⟨ht, bs, hbs⟩ := h d₁ t d₂ hx
    obtain ⟨hall, cs, hrest, hoffset, hleast, hread⟩ := ih hothers
    obtain ⟨⟨b, rest, hleadbytes, hb⟩, hcases⟩ := paramStart_ok hstart
    -- The first byte of the parameter is one of those it was read from.
    have hlead : Leads bs := by
      have hpos := hbs.atLeast
      rw [hbs.rest] at hleadbytes
      rcases bs with - | ⟨c, bs⟩
      · cases hpos
      · exact ⟨c, bs, rfl, (List.cons.inj hleadbytes).1 ▸ hb⟩
    have hone := hbs.atLeast
    have hkeep : (∀ t ∈ scan₁.types, P t) → ∀ t ∈ scan'.types, P t := by
      intro hold
      refine hall fun u hu => ?_
      rcases List.mem_append.mp hu with hmem | hmem
      · exact hold u hmem
      · rw [List.mem_singleton.mp hmem]
        exact ht
    rcases hcases with ⟨rfl, rfl⟩ | ⟨hnone, rfl, hd, hoff⟩
    · refine ⟨hkeep, bs ++ cs, ?_, ?_, ?_, fun offset s => ?_⟩
      · rw [hbs.rest, hrest, List.append_assoc]
      · rw [hoffset, hbs.offset, List.length_append, Nat.add_assoc]
      · rw [List.length_append]
        omega
      · rw [List.append_assoc, params_succ_of_leads hlead hbs.reads, hread, List.length_append,
          Nat.add_assoc]
    · -- A sentinel was passed over first, and it is passed over again.
      refine ⟨hkeep, sentinelByte :: (bs ++ cs), ?_, ?_, ?_, fun offset s => ?_⟩
      · rw [hd, hbs.rest, hrest, List.cons_append, List.append_assoc]
      · rw [hoffset, hbs.offset, hoff, List.length_cons, List.length_append]
        omega
      · rw [List.length_cons, List.length_append]
        omega
      · rw [List.cons_append, List.append_assoc,
          params_succ_of_sentinel hlead hbs.reads n hnone]
        refine (hread (offset + 1 + bs.length) s).trans ?_
        rw [List.length_cons, List.length_append]
        congr 3
        omega

/-- Parameters are read again from their bytes alone. -/
theorem repeats_paramStep {P : TypeSig → Prop} {x y : Decode TypeSig}
    (h : Repeats (fun _ => 0) 1 P x y) (n : Nat) :
    Repeats (fun _ => 0) n (fun r => (∀ t ∈ r.1.types, P t) ∧ Reads 0 (paramStep y n) r.2 r)
      (paramStep x n) (paramStep y n) := by
  intro d r d' hrun
  unfold paramStep at hrun
  generalize hparams : params x n .none d = result at hrun
  obtain ⟨f | ⟨⟩, scan, e⟩ := result
  · cases hrun
  · obtain ⟨rfl, rfl⟩ := EStateM.Result.ok.inj hrun
    obtain ⟨hall, bs, hrest, hoffset, hleast, hread⟩ := params_repeats h n hparams
    -- The bytes that are kept are those that were read.
    have htaken : d.rest.take (e.offset - d.offset) = bs := by
      rw [hoffset, Nat.add_sub_cancel_left, hrest, List.take_left]
    have hreads : Reads 0 (paramStep y n) bs (scan, bs) := by
      intro offset s _
      unfold paramStep
      rw [hread offset s]
      dsimp only
      rw [Nat.add_sub_cancel_left, List.take_left]
    rw [htaken]
    exact ⟨⟨hall (List.forall_mem_nil P), hreads⟩, bs, hrest, hoffset, hleast, Nat.zero_le _, hreads⟩

end ManagedImage.Decode
