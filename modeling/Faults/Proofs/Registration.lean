import Faults.Violation
import Mathlib.Data.List.Nodup

/-!
# Registration

A registry is a list of kinds with two indexes, and only registering changes it. This module says what
the three have to do with each other (`Registry.WF`: each index finds the kinds of the list by their
text, no two of which share one) and what a call adds to them. The main statements:

* `Registry.WF.insert_cases`: one kind is refused for what it shares with the registered ones, or else
  stands behind them;
* `Registry.WF.register`: a list is registered up to the first kind that clashes;
* `Registry.Reached.keeps_step`: both, for every registry that calls can reach, those that failed
  midway among them.
-/

namespace Faults.Registry

/-! ## Indexes -/

/-- The index finds each of the kinds by its text, and no two of them have the same text. -/
structure Indexes (text : Kind → String) (index : List (String × Kind)) (kinds : List Kind) :
    Prop where
  nodup : (kinds.map text).Nodup
  lookup_iff : ∀ key kind, index.lookup key = some kind ↔ kind ∈ kinds ∧ text kind = key

namespace Indexes

variable {text : Kind → String} {index : List (String × Kind)} {kinds : List Kind}

theorem nil : Indexes text [] [] where
  nodup := List.nodup_nil
  lookup_iff key kind := by simp

theorem lookup_eq_none_iff (h : Indexes text index kinds) {key : String} :
    index.lookup key = none ↔ ∀ kind ∈ kinds, text kind ≠ key := by
  constructor
  · intro hnone kind hmem heq
    have hsome := (h.lookup_iff key kind).2 ⟨hmem, heq⟩
    rw [hnone] at hsome
    cases hsome
  · intro hfree
    cases hlookup : index.lookup key with
    | none => rfl
    | some kind =>
      obtain ⟨hmem, heq⟩ := (h.lookup_iff key kind).1 hlookup
      exact absurd heq (hfree kind hmem)

/-- A kind with a new text goes behind the kinds and into the index. -/
theorem snoc (h : Indexes text index kinds) {kind : Kind} (hfree : ∀ other ∈ kinds,
    text other ≠ text kind) : Indexes text ((text kind, kind) :: index) (kinds ++ [kind]) where
  nodup := by
    rw [List.map_append, List.map_singleton]
    refine List.Nodup.append h.nodup (List.nodup_singleton _) fun key hkey hlast => ?_
    obtain ⟨other, hmem, rfl⟩ := List.mem_map.1 hkey
    exact hfree other hmem (List.mem_singleton.1 hlast)
  lookup_iff key found := by
    rw [List.lookup_cons, List.mem_append, List.mem_singleton]
    by_cases hkey : key = text kind
    · subst hkey
      rw [beq_self_eq_true]
      constructor
      · intro heq
        cases heq
        exact ⟨.inr rfl, rfl⟩
      · rintro ⟨hmem | rfl, heq⟩
        · exact absurd heq (hfree found hmem)
        · rfl
    · have hne : (key == text kind) = false := beq_eq_false_iff_ne.2 hkey
      rw [hne]
      refine (h.lookup_iff key found).trans ⟨fun ⟨hmem, heq⟩ => ⟨.inl hmem, heq⟩, ?_⟩
      rintro ⟨hmem | rfl, heq⟩
      · exact ⟨hmem, heq⟩
      · exact absurd heq.symm hkey

end Indexes

/-- Both indexes are in step with the list. -/
structure WF (registry : Registry) : Prop where
  code : Indexes Kind.code registry.byCode registry.kinds
  name : Indexes Kind.name registry.byName registry.kinds

theorem WF.empty : WF .empty := ⟨.nil, .nil⟩

theorem WF.findByCode_eq_some_iff {registry : Registry} (h : registry.WF) {code : String}
    {kind : Kind} :
    registry.findByCode code = some kind ↔ kind ∈ registry.kinds ∧ kind.code = code :=
  h.code.lookup_iff code kind

theorem WF.findByName_eq_some_iff {registry : Registry} (h : registry.WF) {name : String}
    {kind : Kind} :
    registry.findByName name = some kind ↔ kind ∈ registry.kinds ∧ kind.name = name :=
  h.name.lookup_iff name kind

theorem WF.findByCode_eq_none_iff {registry : Registry} (h : registry.WF) {code : String} :
    registry.findByCode code = none ↔ ∀ kind ∈ registry.kinds, kind.code ≠ code :=
  h.code.lookup_eq_none_iff

theorem WF.findByName_eq_none_iff {registry : Registry} (h : registry.WF) {name : String} :
    registry.findByName name = none ↔ ∀ kind ∈ registry.kinds, kind.name ≠ name :=
  h.name.lookup_eq_none_iff

/-- It is the kind itself that counts, since no other registered kind has its code. -/
theorem WF.contains_iff {registry : Registry} (h : registry.WF) {kind : Kind} :
    registry.contains kind = true ↔ kind ∈ registry.kinds := by
  rw [contains, beq_iff_eq, h.findByCode_eq_some_iff]
  exact and_iff_left rfl

/-! ## One kind -/

/-- No kind in the list has the code or the name of this one. -/
def Free (kinds : List Kind) (kind : Kind) : Prop :=
  ∀ other ∈ kinds, other.code ≠ kind.code ∧ other.name ≠ kind.name

/-- Why a kind is refused where others are registered: the holder of its code is named, and its name
matters only when its code is free. -/
inductive Refused (kinds : List Kind) (kind : Kind) : RegistrationError → Prop where
  | code {holder : Kind} (mem : holder ∈ kinds) (same : holder.code = kind.code) :
    Refused kinds kind (.duplicateCode kind.code holder.name kind.name)
  | name {holder : Kind} (mem : holder ∈ kinds) (same : holder.name = kind.name)
      (free : ∀ other ∈ kinds, other.code ≠ kind.code) :
    Refused kinds kind (.duplicateName kind.name)

theorem Refused.not_free {kinds : List Kind} {kind : Kind} {error : RegistrationError}
    (h : Refused kinds kind error) : ¬ Free kinds kind := by
  intro hfree
  cases h with
  | code mem same => exact (hfree _ mem).1 same
  | name mem same => exact (hfree _ mem).2 same

theorem WF.insert_cases {registry : Registry} (h : registry.WF) (kind : Kind) :
    (∃ error, registry.insert kind = .error error ∧ Refused registry.kinds kind error) ∨
      (Free registry.kinds kind ∧ ∃ next, registry.insert kind = .ok next ∧ next.WF ∧
        next.kinds = registry.kinds ++ [kind]) := by
  unfold insert
  cases hcode : registry.findByCode kind.code with
  | some holder =>
    obtain ⟨hmem, hsame⟩ := h.findByCode_eq_some_iff.1 hcode
    exact .inl ⟨_, rfl, .code hmem hsame⟩
  | none =>
    have hcodes := h.findByCode_eq_none_iff.1 hcode
    cases hname : registry.findByName kind.name with
    | some holder =>
      obtain ⟨hmem, hsame⟩ := h.findByName_eq_some_iff.1 hname
      exact .inl ⟨_, rfl, .name hmem hsame hcodes⟩
    | none =>
      have hnames := h.findByName_eq_none_iff.1 hname
      have hfree : Free registry.kinds kind :=
        fun other hmem => ⟨hcodes other hmem, hnames other hmem⟩
      exact .inr ⟨hfree, _, rfl, ⟨h.code.snoc hcodes, h.name.snoc hnames⟩, rfl⟩

/-! ## Lists of kinds -/

/-- Each of the kinds is free where those already present and those before it are registered. -/
def Fresh (present kinds : List Kind) : Prop :=
  ∀ before kind after, kinds = before ++ kind :: after → Free (present ++ before) kind

theorem fresh_nil (present : List Kind) : Fresh present [] := by
  intro before kind after h
  simp at h

theorem fresh_cons {present kinds : List Kind} {kind : Kind} :
    Fresh present (kind :: kinds) ↔ Free present kind ∧ Fresh (present ++ [kind]) kinds := by
  constructor
  · intro h
    refine ⟨?_, fun before other after hsplit => ?_⟩
    · have hhead := h [] kind kinds rfl
      rwa [List.append_nil] at hhead
    · have htail := h (kind :: before) other after (by rw [hsplit]; rfl)
      rwa [List.append_assoc]
  · rintro ⟨hhead, htail⟩ before other after hsplit
    cases before with
    | nil =>
      obtain ⟨rfl, rfl⟩ := List.cons.inj hsplit
      rwa [List.append_nil]
    | cons first before =>
      obtain ⟨rfl, hrest⟩ := List.cons.inj hsplit
      have hother := htail before other after hrest
      rwa [List.append_assoc] at hother

/-- The longest front of a list of kinds that is registered without a clash. -/
structure LongestFresh (present kinds accepted : List Kind) : Prop where
  front : accepted <+: kinds
  fresh : Fresh present accepted
  longest : ∀ other, other <+: kinds → Fresh present other → other <+: accepted

namespace LongestFresh

variable {present kinds accepted : List Kind} {kind : Kind}

theorem nil (present : List Kind) : LongestFresh present [] [] :=
  ⟨List.prefix_rfl, fresh_nil present, fun _ h _ => h⟩

theorem of_not_free (h : ¬ Free present kind) : LongestFresh present (kind :: kinds) [] where
  front := List.nil_prefix
  fresh := fresh_nil present
  longest other hother hfresh := by
    cases other with
    | nil => exact List.prefix_rfl
    | cons first other =>
      obtain ⟨rfl, -⟩ := List.cons_prefix_cons.1 hother
      exact absurd (fresh_cons.1 hfresh).1 h

theorem cons (hfree : Free present kind) (h : LongestFresh (present ++ [kind]) kinds accepted) :
    LongestFresh present (kind :: kinds) (kind :: accepted) where
  front := List.cons_prefix_cons.2 ⟨rfl, h.front⟩
  fresh := fresh_cons.2 ⟨hfree, h.fresh⟩
  longest other hother hfresh := by
    cases other with
    | nil => exact List.nil_prefix
    | cons first other =>
      obtain ⟨rfl, hrest⟩ := List.cons_prefix_cons.1 hother
      exact List.cons_prefix_cons.2 ⟨rfl, h.longest other hrest (fresh_cons.1 hfresh).2⟩

end LongestFresh

/-- What registering a list comes to: its longest fresh front stands behind the kinds that were there,
and the kind after it, if there is one, is refused. -/
structure Accepts (registry : Registry) (kinds accepted : List Kind)
    (outcome : Registry × Option RegistrationError) : Prop where
  longest : LongestFresh registry.kinds kinds accepted
  kinds_eq : outcome.1.kinds = registry.kinds ++ accepted
  succeeds_iff : outcome.2 = none ↔ accepted = kinds
  refused : ∀ kind rest, kinds = accepted ++ kind :: rest →
    ∃ error, outcome.2 = some error ∧ Refused (registry.kinds ++ accepted) kind error

theorem WF.register {registry : Registry} (h : registry.WF) (kinds : List Kind) :
    (registry.register kinds).1.WF ∧
      ∃ accepted, Accepts registry kinds accepted (registry.register kinds) := by
  -- for every registry at once: an accepted kind leaves another one to the rest of the list
  induction kinds generalizing registry with
  | nil =>
    refine ⟨h, [], .nil _, (List.append_nil _).symm, Iff.intro (fun _ => rfl) fun _ => rfl, ?_⟩
    intro kind rest hsplit
    cases hsplit
  | cons kind kinds ih =>
    rw [Registry.register]
    rcases h.insert_cases kind with ⟨error, hinsert, hrefused⟩ |
      ⟨hfree, next, hinsert, hnext, hkinds⟩
    · rw [hinsert]
      refine ⟨h, [], .of_not_free hrefused.not_free, (List.append_nil _).symm, ?_, ?_⟩
      · simp
      · intro first rest hsplit
        obtain ⟨rfl, -⟩ := List.cons.inj hsplit
        rw [List.append_nil]
        exact ⟨error, rfl, hrefused⟩
    · rw [hinsert]
      obtain ⟨hwf, accepted, haccepts⟩ := ih hnext
      refine ⟨hwf, kind :: accepted, ?_, ?_, ?_, ?_⟩
      · have hlongest := haccepts.longest
        rw [hkinds] at hlongest
        exact .cons hfree hlongest
      · rw [haccepts.kinds_eq, hkinds, List.append_assoc]
        rfl
      · rw [haccepts.succeeds_iff, List.cons.injEq, and_iff_right rfl]
      · intro first rest hsplit
        have hrefused := haccepts.refused first rest (List.cons.inj hsplit).2
        rwa [hkinds, List.append_assoc] at hrefused

/-! ## Every sequence of calls -/

/-- The registry is reached by calls that register kinds, from the empty one or from the one of the
standard kinds, whether they succeed or not. -/
inductive Reached : Registry → Prop where
  | empty : Reached .empty
  | withBuiltins : Reached .withBuiltins
  | register {registry : Registry} (h : Reached registry) (kinds : List Kind) :
    Reached (registry.register kinds).1
  | mustRegister {registry : Registry} (h : Reached registry) (kinds : List Kind) :
    Reached (registry.mustRegister kinds).1

theorem Reached.wf {registry : Registry} (h : registry.Reached) : registry.WF := by
  induction h with
  | empty => exact .empty
  | withBuiltins => exact (WF.empty.register Kind.builtin).1
  | register _ kinds ih => exact (ih.register kinds).1
  | mustRegister _ kinds ih => exact (ih.register kinds).1

/-- **The list and the indexes keep step.** In every registry that calls reach, codes are distinct and
so are names, an index finds exactly the registered kind that has the text, and a registry contains the
very kinds of its list. And each call on it, whether a clash is an error or a violation, registers the
longest fresh front of its kinds and nothing else, and reports why the kind after it is refused. -/
theorem Reached.keeps_step {registry : Registry} (h : registry.Reached) :
    ((registry.kinds.map Kind.code).Nodup ∧ (registry.kinds.map Kind.name).Nodup) ∧
    (∀ code kind,
      registry.findByCode code = some kind ↔ kind ∈ registry.kinds ∧ kind.code = code) ∧
    (∀ name kind,
      registry.findByName name = some kind ↔ kind ∈ registry.kinds ∧ kind.name = name) ∧
    (∀ kind, registry.contains kind = true ↔ kind ∈ registry.kinds) ∧
    registry.size = registry.kinds.length ∧
    ∀ kinds,
      (∃ accepted, Accepts registry kinds accepted (registry.register kinds)) ∧
      registry.mustRegister kinds =
        ((registry.register kinds).1, (registry.register kinds).2.map .registration) := by
  have hwf := h.wf
  refine ⟨⟨hwf.code.nodup, hwf.name.nodup⟩, fun code kind => hwf.findByCode_eq_some_iff,
    fun name kind => hwf.findByName_eq_some_iff, fun kind => hwf.contains_iff, rfl, fun kinds => ?_⟩
  exact ⟨(hwf.register kinds).2, rfl⟩

/-- A kind of queues, and one that has taken its code. -/
def queueKinds : List Kind :=
  [.under { serial := 14, name := "QueueFullError", code := "Q00001" } .systemError,
   .root { serial := 15, name := "SomethingElse", code := "Q00001" }]

/-- The registry that a call on these kinds leaves behind when it fails midway. -/
def queues : Registry := (withBuiltins.mustRegister queueKinds).1

theorem queues_keeps_step :
    queues.Reached ∧
    (∀ kind ∈ queueKinds, queues.contains kind = true ↔ kind.name = "QueueFullError") ∧
    (∃ accepted, Accepts queues queueKinds accepted (queues.register queueKinds)) ∧
    queues.register queueKinds =
      (queues, some (.duplicateCode "Q00001" "QueueFullError" "QueueFullError")) := by
  have hreached : queues.Reached := .mustRegister .withBuiltins queueKinds
  obtain ⟨-, -, -, hcontains, -, hcalls⟩ := hreached.keeps_step
  refine ⟨hreached, fun kind hmem => ?_, (hcalls queueKinds).1, rfl⟩
  rw [hcontains]
  revert kind
  decide

end Faults.Registry
