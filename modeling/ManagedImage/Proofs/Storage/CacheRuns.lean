/-
A cache over a whole run of calls.

A run is any sequence of calls, each in surroundings of its own, on one cache that
starts empty. `KeepsRecent` says what such a cache does, in terms of the run alone:
which key was used last when (`LastUse`), what was made, what was reported.

Two invariants carry it. What was made so far is, in some order, what is held and
what was reported (`madeBefore_perm`), one turn added at a time. And the entries
stand in the order of their last use (`Dated`), so the one that falls off the end
of a full cache is the one used longest ago.
-/
import ManagedImage.Proofs.Storage.CacheCalls

set_option autoImplicit false

namespace ManagedImage.Storage.Cache

variable {ρ ε κ α : Type} [DecidableEq κ]

section Run

variable (asked : Int) (calls : Nat → Moment ρ ε κ α)

/-- The cache before the `i`th call. -/
def state : Nat → Cache κ (Made α)
  | 0 => ofCapacity asked
  | i + 1 => ((calls i).perform i (state i)).cache

/-- What the `i`th call does. -/
def effect (i : Nat) : Effect κ (Made α) (Answer ε (Made α)) :=
  (calls i).perform i (state asked calls i)

/-- What the `i`th call makes. -/
def madeAt (i : Nat) : List (κ × Made α) := (calls i).made i (effect asked calls i).loaded

/-- The key is in the cache before the `i`th call. -/
def Held (i : Nat) (k : κ) : Prop := ∃ v, (k, v) ∈ (state asked calls i).entries

/-- Of the calls before the `i`th, the `j`th is the last that has used the key. -/
def LastUse (i : Nat) (k : κ) (j : Nat) : Prop :=
  j < i ∧ (calls j).used (effect asked calls j).answer = some k
    ∧ ∀ l, j < l → l < i → (calls l).used (effect asked calls l).answer ≠ some k

/-- Everything that was made before the `i`th call. -/
def madeBefore (i : Nat) : List (κ × Made α) := (List.range i).flatMap (madeAt asked calls)

/-- Everything that was reported as evicted before the `i`th call. -/
def evictedBefore (i : Nat) : List (κ × Made α) :=
  (List.range i).flatMap fun j => (effect asked calls j).evicted

/-- What a cache does with the objects it is given, whatever it is asked. -/
structure KeepsRecent : Prop where
  /-- There is never more than there is room for. -/
  bounded : ∀ i, (state asked calls i).size ≤ if asked < 1 then 16 else asked.toNat
  /-- A key is loaded by fetching a path of it while it is not held, and only then. -/
  loads : ∀ i k, k ∈ (effect asked calls i).loaded ↔ ¬ Held asked calls i k
    ∧ ∃ path, (calls i).call = .fetch path ∧ (calls i).key path = .ok k
  /-- No call loads twice. -/
  loadsOnce : ∀ i, (effect asked calls i).loaded.length ≤ 1
  /-- What was made is answered at once and is held after the call. -/
  makes : ∀ i k v, (k, v) ∈ madeAt asked calls i →
    (effect asked calls i).answer = .fetched (.ok v)
      ∧ (k, v) ∈ (state asked calls (i + 1)).entries
  /-- As long as the key is held, every path of it gives that object. -/
  gives : ∀ i j k v path, (k, v) ∈ madeAt asked calls i → i < j →
    (∀ l, i < l → l ≤ j → Held asked calls l k) → (calls j).key path = .ok k →
    ((calls j).call = .fetch path → (effect asked calls j).answer = .fetched (.ok v))
      ∧ ((calls j).call = .get path → (effect asked calls j).answer = .got (some v))
  /-- Nothing is held that was not made, and held ever since. -/
  held : ∀ j k v, (k, v) ∈ (state asked calls j).entries → ∃ i < j, (k, v) ∈ madeAt asked calls i
    ∧ ∀ l, i < l → l ≤ j → (k, v) ∈ (state asked calls l).entries
  /-- What is made takes the place of the key used longest ago if there is no room, and of
  nothing otherwise. -/
  displaces : ∀ i k v, (k, v) ∈ madeAt asked calls i →
    if (state asked calls i).size = if asked < 1 then 16 else asked.toNat then
      ∃ old j, (effect asked calls i).evicted = [old] ∧ Held asked calls i old.1
        ∧ LastUse asked calls i old.1 j
        ∧ (∀ k', Held asked calls i k' → k' ≠ old.1 → ∃ j' > j, LastUse asked calls i k' j')
        ∧ ∀ e, e ∈ (state asked calls (i + 1)).entries
            ↔ e = (k, v) ∨ e ∈ (state asked calls i).entries ∧ e.1 ≠ old.1
    else
      (effect asked calls i).evicted = []
        ∧ ∀ e, e ∈ (state asked calls (i + 1)).entries
            ↔ e = (k, v) ∨ e ∈ (state asked calls i).entries
  /-- A fetch that fails changes nothing, not even what was used when. -/
  fails : ∀ i f, (effect asked calls i).answer = .fetched (.error f) →
    state asked calls (i + 1) = state asked calls i ∧ (effect asked calls i).evicted = []
      ∧ ∀ k j, LastUse asked calls (i + 1) k j ↔ LastUse asked calls i k j
  /-- What leaves the cache is reported, and nothing else is. -/
  reports : ∀ i e, e ∈ (effect asked calls i).evicted
    ↔ e ∈ (state asked calls i).entries ∧ e ∉ (state asked calls (i + 1)).entries
  /-- No object is made twice, or reported twice, or reported and held. -/
  once : ∀ i, ((madeBefore asked calls i).map (·.2.maker)).Nodup
    ∧ ((evictedBefore asked calls i ++ (state asked calls i).entries).map (·.2.maker)).Nodup
  /-- All that was made is held or was reported. -/
  accounts : ∀ i, (madeBefore asked calls i).Perm
      (evictedBefore asked calls i ++ (state asked calls i).entries)
    ∧ (madeBefore asked calls i).length
      = (state asked calls i).size + (evictedBefore asked calls i).length

end Run

variable {asked : Int} {calls : Nat → Moment ρ ε κ α} {i j : Nat} {k : κ} {v : Made α}

/-! ## What holds at every call -/

theorem turn_at (asked : Int) (calls : Nat → Moment ρ ε κ α) (i : Nat) :
    Turn i (state asked calls i) (effect asked calls i).answer
      ((calls i).used (effect asked calls i).answer) (madeAt asked calls i)
      (effect asked calls i).evicted (state asked calls (i + 1)) :=
  turn_perform (calls i) i (state asked calls i)

theorem capacity_state (asked : Int) (calls : Nat → Moment ρ ε κ α) (i : Nat) :
    (state asked calls i).capacity = if asked < 1 then 16 else asked.toNat := by
  induction i with
  | zero => rfl
  | succ i ih => rw [(turn_at asked calls i).capacity_eq, ih]

theorem capacity_state_pos (asked : Int) (calls : Nat → Moment ρ ε κ α) (i : Nat) :
    0 < (state asked calls i).capacity := by
  rw [capacity_state]
  split <;> omega

theorem keyed_state (asked : Int) (calls : Nat → Moment ρ ε κ α) (i : Nat) :
    (state asked calls i).Keyed := by
  induction i with
  | zero => exact List.nodup_nil
  | succ i ih => exact (turn_at asked calls i).keyed ih

theorem size_state_le (asked : Int) (calls : Nat → Moment ρ ε κ α) (i : Nat) :
    (state asked calls i).size ≤ (state asked calls i).capacity := by
  induction i with
  | zero => exact Nat.zero_le _
  | succ i ih =>
    have hturn := turn_at asked calls i
    rw [hturn.capacity_eq]
    exact hturn.size_le (keyed_state asked calls i) ih

theorem held_iff : Held asked calls i k ↔ (state asked calls i).find? k ≠ none := by
  rw [Ne, find?_eq_none, Held, not_forall]
  simp only [not_not]

/-! ## Objects -/

theorem madeBefore_succ : madeBefore asked calls (i + 1)
    = madeBefore asked calls i ++ madeAt asked calls i := by
  rw [madeBefore, List.range_succ, List.flatMap_append, List.flatMap_singleton, ← madeBefore]

theorem evictedBefore_succ : evictedBefore asked calls (i + 1)
    = evictedBefore asked calls i ++ (effect asked calls i).evicted := by
  rw [evictedBefore, List.range_succ, List.flatMap_append, List.flatMap_singleton, ← evictedBefore]

/-- **Every object that was made is held or was reported.** -/
theorem madeBefore_perm (asked : Int) (calls : Nat → Moment ρ ε κ α) (i : Nat) :
    (madeBefore asked calls i).Perm
      (evictedBefore asked calls i ++ (state asked calls i).entries) := by
  induction i with
  | zero => exact List.Perm.refl _
  | succ i ih =>
    have hturn := (turn_at asked calls i).perm (keyed_state asked calls i)
    rw [madeBefore_succ, evictedBefore_succ, List.append_assoc]
    calc madeBefore asked calls i ++ madeAt asked calls i
        |>.Perm (evictedBefore asked calls i ++ (state asked calls i).entries
          ++ madeAt asked calls i) := ih.append_right _
      _ = evictedBefore asked calls i ++ ((state asked calls i).entries
          ++ madeAt asked calls i) := List.append_assoc _ _ _
      _ |>.Perm _ := (List.perm_append_comm.trans hturn).append_left _

/-- Each call makes one object at most, and marks it with its number. -/
theorem makers_sublist (asked : Int) (calls : Nat → Moment ρ ε κ α) (i : Nat) :
    ((madeBefore asked calls i).map (·.2.maker)).Sublist (List.range i) := by
  induction i with
  | zero => exact List.Sublist.refl _
  | succ i ih =>
    rw [madeBefore_succ, List.map_append, List.range_succ]
    exact ih.append (turn_at asked calls i).makers_sublist

/-- An object of a key that stays in the cache stays there. -/
theorem held_object (hv : (k, v) ∈ (state asked calls i).entries)
    (hheld : ∀ l, i < l → l ≤ j → Held asked calls l k) (hij : i ≤ j) :
    (k, v) ∈ (state asked calls j).entries := by
  induction hij with
  | refl => exact hv
  | @step j hij ih =>
    have hold := ih fun l hl hle => hheld l hl (Nat.le_succ_of_le hle)
    obtain ⟨w, hw⟩ := hheld (j + 1) (Nat.lt_succ_of_le hij) (Nat.le_refl _)
    exact (turn_at asked calls j).stays (keyed_state asked calls j) hold hw

/-- What is held has been made, and was held ever since. -/
theorem held_since (hv : (k, v) ∈ (state asked calls j).entries) :
    ∃ i < j, (k, v) ∈ madeAt asked calls i
      ∧ ∀ l, i < l → l ≤ j → (k, v) ∈ (state asked calls l).entries := by
  induction j with
  | zero => exact absurd hv List.not_mem_nil
  | succ j ih =>
    have hperm := (turn_at asked calls j).perm (keyed_state asked calls j)
    rcases List.mem_append.mp (hperm.mem_iff.mpr (List.mem_append_right _ hv)) with hmade | hold
    · refine ⟨j, Nat.lt_succ_self j, hmade, fun l hl hle => ?_⟩
      rwa [Nat.le_antisymm hle hl]
    · obtain ⟨i, hi, hmade, hsince⟩ := ih hold
      refine ⟨i, Nat.lt_succ_of_lt hi, hmade, fun l hl hle => ?_⟩
      rcases Nat.le_succ_iff.mp hle with hle | rfl
      · exact hsince l hl hle
      · exact hv

/-- A path of a key that is held gives the object of the key. -/
theorem answer_of_held {path : ρ} (hv : (k, v) ∈ (state asked calls i).entries)
    (hkey : (calls i).key path = .ok k) :
    ((calls i).call = .fetch path → (effect asked calls i).answer = .fetched (.ok v))
      ∧ ((calls i).call = .get path → (effect asked calls i).answer = .got (some v)) := by
  have hfind := (keyed_state asked calls i).find?_eq_some.mpr hv
  constructor
  · intro hcall
    rw [effect, perform_fetch hcall, fetch_of_held hkey hfind]
    rfl
  · intro hcall
    rw [effect, perform_get hcall, get_of_held hkey hfind]
    rfl

theorem makes_and_holds (hmade : (k, v) ∈ madeAt asked calls i) :
    (effect asked calls i).answer = .fetched (.ok v)
      ∧ (k, v) ∈ (state asked calls (i + 1)).entries := by
  obtain ⟨-, hanswer, -, -, hentries⟩ := (turn_at asked calls i).of_made hmade
  obtain ⟨n, hn⟩ := Nat.exists_eq_succ_of_ne_zero
    (Nat.pos_iff_ne_zero.mp (capacity_state_pos asked calls i))
  rw [hentries, hn, List.take_succ_cons]
  exact ⟨hanswer, List.mem_cons_self⟩

/-! ## The order of use -/

theorem lastUse_now (h : (calls i).used (effect asked calls i).answer = some k) :
    LastUse asked calls (i + 1) k i :=
  ⟨Nat.lt_succ_self i, h, fun l hl hlt => by omega⟩

theorem lastUse_succ (h : (calls i).used (effect asked calls i).answer ≠ some k) :
    LastUse asked calls (i + 1) k j ↔ LastUse asked calls i k j := by
  constructor
  · rintro ⟨hlt, hused, hlater⟩
    have hne : j ≠ i := fun hj => h (hj ▸ hused)
    exact ⟨by omega, hused, fun l hl hli => hlater l hl (by omega)⟩
  · rintro ⟨hlt, hused, hlater⟩
    refine ⟨by omega, hused, fun l hl hli => ?_⟩
    by_cases hl' : l = i
    · subst hl'
      exact h
    · exact hlater l hl (by omega)

theorem LastUse.unique {j' : Nat} (h : LastUse asked calls i k j)
    (h' : LastUse asked calls i k j') : j = j' := by
  obtain ⟨hlt, hused, hlater⟩ := h
  obtain ⟨hlt', hused', hlater'⟩ := h'
  rcases Nat.lt_trichotomy j j' with hj | hj | hj
  · exact absurd hused' (hlater j' hj hlt')
  · exact hj
  · exact absurd hused (hlater' j hj hlt)

variable (asked calls) in
/-- Every entry has been used, and one that stands before another was used after it. -/
structure Dated (i : Nat) (entries : List (κ × Made α)) : Prop where
  used : ∀ e ∈ entries, ∃ j, LastUse asked calls i e.1 j
  ordered : entries.Pairwise fun e e' =>
    ∃ j j', LastUse asked calls i e.1 j ∧ LastUse asked calls i e'.1 j' ∧ j' < j

section Dates

variable {entries entries' : List (κ × Made α)}

theorem Dated.sublist (h : Dated asked calls i entries) (hsub : entries'.Sublist entries) :
    Dated asked calls i entries' :=
  ⟨fun e he => h.used e (hsub.subset he), h.ordered.sublist hsub⟩

/-- A call that uses none of the keys leaves them in order. -/
theorem Dated.succ (h : Dated asked calls i entries)
    (hne : ∀ e ∈ entries, (calls i).used (effect asked calls i).answer ≠ some e.1) :
    Dated asked calls (i + 1) entries := by
  constructor
  · intro e he
    obtain ⟨j, hj⟩ := h.used e he
    exact ⟨j, (lastUse_succ (hne e he)).mpr hj⟩
  · refine h.ordered.imp_of_mem fun he he' ⟨j, j', hj, hj', hlt⟩ => ?_
    exact ⟨j, j', (lastUse_succ (hne _ he)).mpr hj, (lastUse_succ (hne _ he')).mpr hj', hlt⟩

/-- The key that is used belongs in front of all others. -/
theorem Dated.front (h : Dated asked calls i entries)
    (hused : (calls i).used (effect asked calls i).answer = some k)
    (hne : ∀ e ∈ entries, e.1 ≠ k) : Dated asked calls (i + 1) ((k, v) :: entries) := by
  have hrest := h.succ fun e he hsame => hne e he (Option.some.inj (hsame.symm.trans hused))
  constructor
  · intro e he
    rcases List.mem_cons.mp he with rfl | he
    · exact ⟨i, lastUse_now hused⟩
    · exact hrest.used e he
  · rw [List.pairwise_cons]
    refine ⟨fun e he => ?_, hrest.ordered⟩
    obtain ⟨j, hj⟩ := h.used e he
    have hj' := (lastUse_succ fun hsame => hne e he (Option.some.inj (hsame.symm.trans hused))).mpr hj
    exact ⟨i, j, lastUse_now hused, hj', hj.1⟩

/-- The last entry is the one used longest ago. -/
theorem Dated.oldest {old : κ × Made α} (h : Dated asked calls i (entries ++ [old])) :
    ∃ j, LastUse asked calls i old.1 j
      ∧ ∀ e ∈ entries, ∃ j' > j, LastUse asked calls i e.1 j' := by
  obtain ⟨j, hj⟩ := h.used old (List.mem_append_right _ (List.mem_singleton_self old))
  refine ⟨j, hj, fun e he => ?_⟩
  obtain ⟨-, -, hpairs⟩ := List.pairwise_append.mp h.ordered
  obtain ⟨j₁, j₂, hj₁, hj₂, hlt⟩ := hpairs e he old (List.mem_singleton_self old)
  rw [hj₂.unique hj] at hlt
  exact ⟨j₁, hlt, hj₁⟩

end Dates

/-- **The entries stand in the order of their last use.** -/
theorem dated_state (asked : Int) (calls : Nat → Moment ρ ε κ α) (i : Nat) :
    Dated asked calls i (state asked calls i).entries := by
  induction i with
  | zero => exact ⟨fun e he => absurd he List.not_mem_nil, List.Pairwise.nil⟩
  | succ i ih =>
    rcases (turn_at asked calls i).entries_cases with ⟨hused, hsub⟩ | ⟨k, v, hused, hsub⟩
    · refine (ih.succ fun e _ => ?_).sublist hsub
      rw [hused]
      exact Option.some_ne_none _ |>.symm
    · have hothers : Dated asked calls i ((state asked calls i).others k) :=
        ih.sublist List.filter_sublist
      exact (hothers.front hused fun e he => (mem_others.mp he).2).sublist hsub

/-! ## Room for what is made -/

theorem displaces_oldest (hmade : (k, v) ∈ madeAt asked calls i)
    (hfull : (state asked calls i).size = (state asked calls i).capacity) :
    ∃ old j, (effect asked calls i).evicted = [old] ∧ Held asked calls i old.1
      ∧ LastUse asked calls i old.1 j
      ∧ (∀ k', Held asked calls i k' → k' ≠ old.1 → ∃ j' > j, LastUse asked calls i k' j')
      ∧ ∀ e, e ∈ (state asked calls (i + 1)).entries
          ↔ e = (k, v) ∨ e ∈ (state asked calls i).entries ∧ e.1 ≠ old.1 := by
  obtain ⟨-, -, -, hevicted, hentries⟩ := (turn_at asked calls i).of_made hmade
  have hdated := dated_state asked calls i
  have hkeyed := keyed_state asked calls i
  have hpos := capacity_state_pos asked calls i
  rw [← hfull, size] at hevicted hentries hpos
  -- A cache with room for anything is not full while it is empty.
  obtain ⟨init, old, hinit⟩ : ∃ init old, (state asked calls i).entries = init ++ [old] := by
    rcases List.eq_nil_or_concat (state asked calls i).entries with hnil | ⟨init, old, hinit⟩
    · rw [hnil] at hpos
      exact absurd hpos (Nat.lt_irrefl 0)
    · exact ⟨init, old, by rw [hinit, List.concat_eq_append]⟩
  rw [hinit, List.length_append, List.length_singleton] at hevicted hentries
  rw [List.drop_succ_cons, List.drop_left] at hevicted
  rw [List.take_succ_cons, List.take_left] at hentries
  rw [Keyed, hinit, List.map_append] at hkeyed
  rw [hinit] at hdated
  obtain ⟨j, hj, hlater⟩ := hdated.oldest
  have hold : old ∈ init ++ [old] := List.mem_append_right _ (List.mem_singleton_self old)
  have hne : ∀ e ∈ init, e.1 ≠ old.1 := fun e he hsame =>
    List.disjoint_of_nodup_append hkeyed (List.mem_map_of_mem he)
      (List.mem_singleton.mpr hsame)
  refine ⟨old, j, hevicted, ⟨old.2, by rw [hinit]; exact hold⟩, hj, ?_, ?_⟩
  · rintro k' ⟨w, hmem⟩ hk'
    rw [hinit, List.mem_append, List.mem_singleton] at hmem
    rcases hmem with hmem | rfl
    · exact hlater _ hmem
    · exact absurd rfl hk'
  · intro e
    rw [hentries, hinit, List.mem_cons, List.mem_append, List.mem_singleton]
    constructor
    · rintro (rfl | he)
      · exact Or.inl rfl
      · exact Or.inr ⟨Or.inl he, hne e he⟩
    · rintro (rfl | ⟨he | rfl, hother⟩)
      · exact Or.inl rfl
      · exact Or.inr he
      · exact absurd rfl hother

theorem displaces_nothing (hmade : (k, v) ∈ madeAt asked calls i)
    (hfull : (state asked calls i).size ≠ (state asked calls i).capacity) :
    (effect asked calls i).evicted = []
      ∧ ∀ e, e ∈ (state asked calls (i + 1)).entries
          ↔ e = (k, v) ∨ e ∈ (state asked calls i).entries := by
  obtain ⟨-, -, -, hevicted, hentries⟩ := (turn_at asked calls i).of_made hmade
  have hle := size_state_le asked calls i
  have hfits : ((k, v) :: (state asked calls i).entries).length ≤ (state asked calls i).capacity := by
    rw [size] at hle hfull
    rw [List.length_cons]
    omega
  rw [hevicted, hentries, List.take_of_length_le hfits, List.drop_of_length_le hfits]
  exact ⟨rfl, fun e => List.mem_cons⟩

/-! ## The run -/

/-- **A cache keeps what was used last, and accounts for the rest.** Whatever the surroundings are
at each call, however calls are mixed: there is never more than there is room for; only a fetch of
a key that is not held loads it; as long as the key is held, all its paths give that one object; a
full cache gives up the key used longest ago for a new one; a fetch that fails leaves everything
as it was; and every object is reported once, by the call after which it is no longer held. -/
theorem runs_keep_recent (asked : Int) (calls : Nat → Moment ρ ε κ α) :
    KeepsRecent asked calls where
  bounded i := by
    rw [← capacity_state asked calls i]
    exact size_state_le asked calls i
  loads i k := by
    rw [held_iff, not_not]
    exact (loaded_perform (calls i) i (state asked calls i)).2 k
  loadsOnce i := (loaded_perform (calls i) i (state asked calls i)).1
  makes i k v := makes_and_holds
  gives i j k v path hmade hij hheld hkey := by
    -- The object is held from the call that made it until this one.
    have hfirst := (makes_and_holds hmade).2
    exact answer_of_held (held_object hfirst (fun l hl => hheld l (Nat.lt_of_succ_lt hl)) hij) hkey
  held j k v := held_since
  displaces i k v hmade := by
    rw [← capacity_state asked calls i]
    split
    · next hfull => exact displaces_oldest hmade hfull
    · next hfull => exact displaces_nothing hmade hfull
  fails i f hanswer := by
    have hturn := turn_at asked calls i
    rw [hanswer] at hturn
    obtain ⟨hused, hevicted, hstate⟩ := hturn.of_failed
    refine ⟨hstate, hevicted, fun k j => lastUse_succ ?_⟩
    rw [hanswer, hused]
    exact (Option.some_ne_none k).symm
  reports i e := (turn_at asked calls i).mem_evicted (keyed_state asked calls i)
    (capacity_state_pos asked calls i)
  once i := by
    -- Every call makes at most one object, so the objects are told apart by their makers.
    have hnodup := List.nodup_range.sublist (makers_sublist asked calls i)
    have hperm := (madeBefore_perm asked calls i).map (·.2.maker)
    exact ⟨hnodup, hperm.nodup_iff.mp hnodup⟩
  accounts i := by
    have hperm := madeBefore_perm asked calls i
    refine ⟨hperm, ?_⟩
    rw [hperm.length_eq, List.length_append, Nat.add_comm, size]

end ManagedImage.Storage.Cache
