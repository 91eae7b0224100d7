import Faults.Proofs.Tags

/-!
# The order of kinds

A kind falls under those of its lineage, so of two kinds one falls under the other exactly when its
lineage ends with the lineage of the other (`Kind.mem_lineage_iff_suffix`). The laws of an order
follow from that, and two kinds above one are comparable, since both lineages end the same one. What
is between the two kinds makes up for the difference of their tags, and of their statuses
(`Kind.exists_climbs`).

None of this looks at names or codes. Two kinds of a program are the same when their serials are
(`Kind.Forest.eq_iff_serial`), and `Kind.Forest.ordered` says so of the whole order.
-/

namespace Faults.Kind

/-! ## The way up -/

theorem mem_lineage_iff_suffix {kind other : Kind} :
    other ∈ kind.lineage ↔ other.lineage <:+ kind.lineage := by
  constructor
  · intro h
    induction kind with
    | root label =>
      obtain rfl := List.mem_singleton.1 h
      exact List.suffix_rfl
    | under label parent ih =>
      rcases List.mem_cons.1 h with rfl | h
      · exact List.suffix_rfl
      · exact (ih h).trans (List.suffix_cons _ _)
  · exact fun h => h.subset other.self_mem_lineage

theorem eq_of_lineage_eq {kind other : Kind} (h : kind.lineage = other.lineage) : kind = other := by
  obtain ⟨above, habove⟩ := kind.lineage_eq_cons
  obtain ⟨above', habove'⟩ := other.lineage_eq_cons
  rw [habove, habove'] at h
  exact (List.cons.inj h).1

theorem tag_under (label : Label) (parent : Kind) :
    (under label parent).tag = label.name ++ "::" ++ parent.tag := by
  obtain ⟨above, habove⟩ := parent.lineage_eq_cons
  have hparent := parent.toList_tag
  rw [habove, List.map_cons] at hparent
  apply String.toList_injective
  rw [toList_tag, lineage_under, habove, List.map_cons, List.map_cons, Text.join, ← hparent,
    String.toList_append, String.toList_append, List.append_assoc]
  rfl

theorem status_under {label : Label} (h : label.status = none) (parent : Kind) :
    (under label parent).status = parent.status := by
  have hhint : (under label parent).statusHint = none := h
  rw [status, lineage_under, List.findSome?_cons, hhint, status]

/-- `between` is what stands below the other kind on the way up to it, and the two kinds share what
follows from there. -/
structure Climbs (kind other : Kind) (between : List Kind) : Prop where
  lineage : kind.lineage = between ++ other.lineage
  apart : other ∉ between
  tag : kind.tag = between.foldr (fun step above => step.name ++ "::" ++ above) other.tag
  top : kind.top = other.top
  status : (∀ step ∈ between, step.statusHint = none) → kind.status = other.status

theorem Climbs.refl (kind : Kind) : kind.Climbs kind [] :=
  ⟨rfl, List.not_mem_nil, rfl, rfl, fun _ => rfl⟩

theorem Climbs.under {parent other : Kind} {between : List Kind} (h : parent.Climbs other between)
    {label : Label} (hne : other ≠ under label parent) :
    (Kind.under label parent).Climbs other (Kind.under label parent :: between) := by
  refine ⟨?_, ?_, ?_, h.top, fun hhints => ?_⟩
  · rw [lineage_under, h.lineage, List.cons_append]
  · exact fun hmem => (List.mem_cons.1 hmem).elim hne h.apart
  · rw [tag_under, h.tag, List.foldr_cons]
    rfl
  · obtain ⟨hlabel, hbetween⟩ := List.forall_mem_cons.1 hhints
    exact (status_under hlabel parent).trans (h.status hbetween)

theorem exists_climbs {kind other : Kind} (h : other ∈ kind.lineage) :
    ∃ between, kind.Climbs other between := by
  induction kind with
  | root label =>
    obtain rfl := List.mem_singleton.1 h
    exact ⟨[], .refl _⟩
  | under label parent ih =>
    by_cases heq : other = under label parent
    · exact ⟨[], heq ▸ .refl _⟩
    · obtain ⟨between, hbetween⟩ := ih ((List.mem_cons.1 h).resolve_left heq)
      exact ⟨_, hbetween.under heq⟩

/-! ## Kinds of one program -/

/-- Kinds in the order of their definitions: each has a serial of its own, and the kind it is placed
under is there before it. -/
inductive Forest : List Kind → Prop where
  | nil : Forest []
  | snoc {kinds : List Kind} {kind : Kind} (h : Forest kinds)
      (serial : ∀ other ∈ kinds, other.label.serial ≠ kind.label.serial)
      (parent : ∀ parent, kind.parent? = some parent → parent ∈ kinds) : Forest (kinds ++ [kind])

namespace Forest

variable {kinds : List Kind}

theorem mem_of_lineage (h : Forest kinds) {kind ancestor : Kind} (hkind : kind ∈ kinds)
    (hancestor : ancestor ∈ kind.lineage) : ancestor ∈ kinds := by
  induction h generalizing kind with
  | nil => cases hkind
  | @snoc kinds last _ _ hparent ih =>
    rw [List.mem_append, List.mem_singleton] at hkind ⊢
    rcases hkind with hkind | rfl
    · exact .inl (ih hkind hancestor)
    · cases kind with
      | root label => exact .inr (List.mem_singleton.1 hancestor)
      | under label parent =>
        rcases List.mem_cons.1 hancestor with rfl | hancestor
        · exact .inr rfl
        · exact .inl (ih (hparent parent rfl) hancestor)

theorem eq_iff_serial (h : Forest kinds) {kind other : Kind} (hkind : kind ∈ kinds)
    (hother : other ∈ kinds) : kind = other ↔ kind.label.serial = other.label.serial := by
  refine ⟨fun heq => by rw [heq], fun heq => ?_⟩
  induction h with
  | nil => cases hkind
  | @snoc kinds last _ hserial _ ih =>
    rw [List.mem_append, List.mem_singleton] at hkind hother
    rcases hkind with hkind | rfl
    · rcases hother with hother | rfl
      · exact ih hkind hother
      · exact absurd heq (hserial _ hkind)
    · rcases hother with hother | rfl
      · exact absurd heq.symm (hserial _ hother)
      · rfl

end Forest

/-- Among the kinds, falling under one is an order in which the kinds above one are comparable.
Kinds are told apart by their serials, whatever their names and codes are. -/
structure Ordered (kinds : List Kind) : Prop where
  identity : ∀ kind ∈ kinds, ∀ other ∈ kinds,
    (kind = other ↔ kind.label.serial = other.label.serial)
  refl : ∀ kind ∈ kinds, kind.isA kind = true
  trans : ∀ kind ∈ kinds, ∀ middle ∈ kinds, ∀ other ∈ kinds,
    kind.isA middle = true → middle.isA other = true → kind.isA other = true
  antisymm : ∀ kind ∈ kinds, ∀ other ∈ kinds,
    kind.isA other = true → other.isA kind = true → kind = other
  comparable : ∀ kind ∈ kinds, ∀ left ∈ kinds, ∀ right ∈ kinds,
    kind.isA left = true → kind.isA right = true → left.isA right = true ∨ right.isA left = true
  ancestors : ∀ kind ∈ kinds, ∀ other ∈ kinds, (kind.isA other = true ↔
    ∃ ancestor ∈ kind.lineage, ancestor.label.serial = other.label.serial)
  climbs : ∀ kind ∈ kinds, ∀ other ∈ kinds,
    kind.isA other = true → ∃ between, kind.Climbs other between
  trees : ∀ kind ∈ kinds, ∀ other ∈ kinds,
    kind.top ≠ other.top → kind.isA other = false ∧ other.isA kind = false

theorem antisymm_of_mem_lineage {kind other : Kind} (h : other ∈ kind.lineage)
    (h' : kind ∈ other.lineage) : kind = other := by
  have hsuffix := mem_lineage_iff_suffix.1 h
  have hsuffix' := mem_lineage_iff_suffix.1 h'
  exact eq_of_lineage_eq (hsuffix'.eq_of_length (le_antisymm hsuffix'.length_le hsuffix.length_le))

theorem isA_eq_false_of_top_ne {kind other : Kind} (h : kind.top ≠ other.top) :
    kind.isA other = false := by
  rw [Bool.eq_false_iff, Ne, isA_iff]
  intro hmem
  obtain ⟨between, hbetween⟩ := exists_climbs hmem
  exact h hbetween.top

/-- **The order of kinds.** In every program the kinds are ordered by falling under one another. -/
theorem Forest.ordered {kinds : List Kind} (h : Forest kinds) : Ordered kinds where
  identity _ hkind _ hother := h.eq_iff_serial hkind hother
  refl kind _ := isA_iff.2 kind.self_mem_lineage
  trans _ _ _ _ _ _ hmiddle hother :=
    isA_iff.2 (mem_lineage_trans (isA_iff.1 hmiddle) (isA_iff.1 hother))
  antisymm _ _ _ _ hother hkind := antisymm_of_mem_lineage (isA_iff.1 hother) (isA_iff.1 hkind)
  comparable kind _ left _ right _ hleft hright := by
    rw [isA_iff, mem_lineage_iff_suffix] at hleft hright ⊢
    rw [isA_iff, mem_lineage_iff_suffix]
    exact (List.suffix_or_suffix_of_suffix hleft hright).symm
  ancestors kind hkind other hother := by
    rw [isA_iff]
    constructor
    · exact fun hmem => ⟨other, hmem, rfl⟩
    · rintro ⟨ancestor, hmem, hserial⟩
      rwa [← (h.eq_iff_serial (h.mem_of_lineage hkind hmem) hother).2 hserial]
  climbs _ _ _ _ hother := exists_climbs (isA_iff.1 hother)
  trees _ _ _ _ htop := ⟨isA_eq_false_of_top_ne htop, isA_eq_false_of_top_ne htop.symm⟩

/-- Two roots and a kind under the first one, all of one name and one code. -/
theorem disks_ordered :
    let disk : Kind := root { serial := 0, name := "DiskError", code := "D1", status := some 507 }
    let twin : Kind := root { serial := 1, name := "DiskError", code := "D1" }
    let full : Kind := under { serial := 2, name := "DiskError", code := "D1" } disk
    Forest [disk, twin, full] ∧ full.isA disk = true ∧ full.isA twin = false ∧
      disk.isA full = false ∧ disk ≠ twin ∧ full.status = 507 ∧
      full.tag = "DiskError::DiskError" := by
  intro disk twin full
  have hforest : Forest [disk, twin, full] := by
    refine .snoc (.snoc (.snoc .nil ?_ ?_) ?_ ?_) ?_ ?_
    all_goals simp [disk, twin, full, label, parent?]
  have hordered := hforest.ordered
  have hdisk : disk ∈ [disk, twin, full] := by simp
  have htwin : twin ∈ [disk, twin, full] := by simp
  have hfull : full ∈ [disk, twin, full] := by simp
  have hdisk_twin : disk ≠ twin := fun h => by
    have hserial := (hordered.identity disk hdisk twin htwin).1 h
    cases hserial
  have hfalls : full.isA disk = true :=
    (hordered.ancestors full hfull disk hdisk).2
      ⟨disk, List.mem_cons_of_mem _ List.mem_cons_self, rfl⟩
  have hnot : disk.isA full = false := Bool.eq_false_iff.2 fun h => by
    have hserial := (hordered.identity full hfull disk hdisk).1
      (hordered.antisymm full hfull disk hdisk hfalls h)
    cases hserial
  have happart := (hordered.trees full hfull twin htwin hdisk_twin).1
  refine ⟨hforest, hfalls, happart, hnot, hdisk_twin, rfl, ?_⟩
  decide

end Faults.Kind
