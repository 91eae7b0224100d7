import Faults.Proofs.Reception
import Faults.Proofs.Registration
import Mathlib.Data.List.DropRight
import Mathlib.Data.List.Forall2

/-!
# Kinds and their tags

A tag is the names of a lineage joined by double colons. It is resolved by taking it apart again and
looking the names up, so resolving undoes joining for names that a double colon sets apart. The main
statements:

* `Text.segments_append`, `Text.segments_join`: what taking apart gives back;
* `Kind.names_tag`, `Kind.names_of_spells`: which names a tag holds, blanks around them or not;
* `Report.resolve_nearest`: a tag is resolved to the nearest kind of the lineage that is known;
* `Report.resolve_registered`: a registered kind is resolved to itself when its tag is its code, or when
  no code is the tag and its name can be told from the rest of it.
-/

namespace Faults

/-! ## Taking apart what was joined -/

namespace Text

/-- No double colon in the text. -/
def Unjoined (text : List Char) : Prop := ¬ [':', ':'] <:+: text

theorem unjoined_cons {c : Char} {text : List Char} :
    Unjoined (c :: text) ↔ ¬ (c = ':' ∧ text.head? = some ':') ∧ Unjoined text := by
  have hfront : [':', ':'] <+: c :: text ↔ c = ':' ∧ text.head? = some ':' := by
    rw [List.cons_prefix_cons, eq_comm]
    refine and_congr_right fun _ => ?_
    cases text with
    | nil => simp
    | cons d text => simp [List.cons_prefix_cons, eq_comm]
  rw [Unjoined, List.infix_cons_iff, hfront, not_or]
  rfl

instance decidableUnjoined : (text : List Char) → Decidable (Unjoined text)
  | [] => .isTrue (by simp [Unjoined])
  | _ :: text =>
    have := decidableUnjoined text
    decidable_of_iff _ unjoined_cons.symm

/-- A colon behind a text makes a double colon only where there was one, or a colon at the end. -/
theorem unjoined_concat {text : List Char} :
    Unjoined (text ++ [':']) ↔ Unjoined text ∧ text.getLast? ≠ some ':' := by
  induction text with
  | nil =>
    rw [List.nil_append, unjoined_cons]
    simp [Unjoined]
  | cons c text ih =>
    rw [List.cons_append, unjoined_cons, unjoined_cons, ih]
    cases text with
    | nil => simp [Unjoined]
    | cons d text =>
      rw [List.cons_append, List.head?_cons, List.head?_cons, List.getLast?_cons_cons]
      exact and_assoc.symm

theorem unjoined_of_not_mem {text : List Char} (h : ':' ∉ text) : Unjoined text := by
  intro hjoint
  exact h (hjoint.subset List.mem_cons_self)

theorem segments_cons {c : Char} {rest : List Char} (h : ¬ (c = ':' ∧ rest.head? = some ':')) :
    segments (c :: rest) = grow c (segments rest) := by
  rw [segments]
  rintro tail rfl rfl
  exact h ⟨rfl, rfl⟩

theorem segments_eq_singleton {text : List Char} (h : Unjoined text) : segments text = [text] := by
  induction text with
  | nil => rfl
  | cons c text ih =>
    obtain ⟨hhead, htail⟩ := unjoined_cons.1 h
    rw [segments_cons hhead, ih htail, grow]

/-- A text is set apart by the double colon behind it, if the first double colon is that one. -/
theorem segments_append {text : List Char} (h : Unjoined (text ++ [':'])) (rest : List Char) :
    segments (text ++ ':' :: ':' :: rest) = text :: segments rest := by
  induction text with
  | nil => rfl
  | cons c text ih =>
    rw [List.cons_append, unjoined_cons] at h
    have hhead : ¬ (c = ':' ∧ (text ++ ':' :: ':' :: rest).head? = some ':') := by
      have hcolon := h.1
      cases text with
      | nil => exact hcolon
      | cons d text => exact hcolon
    rw [List.cons_append, segments_cons hhead, ih h.2, grow]

theorem segments_join {parts : List (List Char)} (hne : parts ≠ [])
    (h : ∀ part ∈ parts, ':' ∉ part) : segments (join parts) = parts := by
  induction parts with
  | nil => exact absurd rfl hne
  | cons part rest ih =>
    obtain ⟨hpart, hrest⟩ := List.forall_mem_cons.1 h
    cases rest with
    | nil => exact segments_eq_singleton (unjoined_of_not_mem hpart)
    | cons next rest =>
      have hset : Unjoined (part ++ [':']) := by
        refine unjoined_concat.2 ⟨unjoined_of_not_mem hpart, fun hlast => ?_⟩
        exact hpart (List.mem_of_getLast? hlast)
      rw [join, segments_append hset, ih (List.cons_ne_nil _ _) hrest]

theorem segments_eq_cons (text : List Char) :
    ∃ first others, segments text = first :: others ∧ first <+: text := by
  induction text using segments.induct with
  | case1 rest => exact ⟨[], segments rest, rfl, List.nil_prefix⟩
  | case2 c rest hcolon ih =>
    obtain ⟨first, others, heq, hprefix⟩ := ih
    refine ⟨c :: first, others, ?_, List.cons_prefix_cons.2 ⟨rfl, hprefix⟩⟩
    rw [segments.eq_2 c rest hcolon, heq, grow]
  | case3 => exact ⟨[], [], rfl, List.nil_prefix⟩

theorem unjoined_of_mem_segments {text : List Char} :
    ∀ segment ∈ segments text, Unjoined segment := by
  have hnil : Unjoined [] := unjoined_of_not_mem List.not_mem_nil
  induction text using segments.induct with
  | case1 rest ih => exact List.forall_mem_cons.2 ⟨hnil, ih⟩
  | case2 c rest hcolon ih =>
    obtain ⟨first, others, heq, hprefix⟩ := segments_eq_cons rest
    rw [heq, List.forall_mem_cons] at ih
    rw [segments.eq_2 c rest hcolon, heq, grow, List.forall_mem_cons]
    refine ⟨unjoined_cons.2 ⟨fun ⟨hc, hfirst⟩ => ?_, ih.1⟩, ih.2⟩
    -- a colon that starts the first segment starts the text too
    obtain ⟨tail, rfl⟩ := List.head?_eq_some_iff.1 hfirst
    obtain ⟨more, rfl⟩ := hprefix
    exact hcolon (tail ++ more) hc rfl
  | case3 => exact List.forall_mem_singleton.2 hnil

/-! ## Blanks -/

/-- No blank at either end of the text. -/
structure Trimmed (text : List Char) : Prop where
  first : ∀ c ∈ text.head?, isBlank c = false
  last : ∀ c ∈ text.getLast?, isBlank c = false

-- by the ends of the text, not by trying every character
instance (text : List Char) : Decidable (Trimmed text) :=
  have : Decidable (∀ c ∈ text.head?, isBlank c = false) := Option.decidableForallMem _
  have : Decidable (∀ c ∈ text.getLast?, isBlank c = false) := Option.decidableForallMem _
  decidable_of_iff (_ ∧ _) ⟨fun h => ⟨h.1, h.2⟩, fun h => And.intro h.first h.last⟩

theorem Trimmed.trim_eq {text : List Char} (h : Trimmed text) : trim text = text :=
  trim_eq_self h.first h.last

theorem trim_isInfix (text : List Char) : trim text <:+: text :=
  (List.rdropWhile_prefix isBlank _).isInfix.trans (List.dropWhile_suffix isBlank).isInfix

theorem trimmed_trim (text : List Char) : Trimmed (trim text) where
  first c hc := by
    obtain ⟨tail, htail⟩ := List.head?_eq_some_iff.1 hc
    obtain ⟨more, hmore⟩ : trim text <+: text.dropWhile isBlank := List.rdropWhile_prefix isBlank _
    have hfirst := List.head?_dropWhile_not isBlank text
    rw [← hmore, htail] at hfirst
    exact hfirst
  last c hc := by
    have hlast := List.head?_dropWhile_not isBlank (text.dropWhile isBlank).reverse
    rw [← List.getLast?_reverse] at hlast
    rw [trim, Option.mem_def] at hc
    rw [hc] at hlast
    exact hlast

/-- The text with blanks around it. -/
def Pads (text padded : List Char) : Prop :=
  ∃ before after, (∀ c ∈ before, isBlank c = true) ∧ (∀ c ∈ after, isBlank c = true) ∧
    padded = before ++ text ++ after

theorem Pads.rfl {text : List Char} : Pads text text :=
  ⟨[], [], by simp, by simp, by simp⟩

theorem dropWhile_blank {blanks text : List Char} (hblanks : ∀ c ∈ blanks, isBlank c = true)
    (hfirst : ∀ c ∈ text.head?, isBlank c = false) :
    (blanks ++ text).dropWhile isBlank = text := by
  rw [List.dropWhile_append_of_pos hblanks]
  cases text with
  | nil => rfl
  | cons c text => simp [hfirst c rfl]

theorem Pads.trim_eq {text padded : List Char} (h : Pads text padded) (htext : Trimmed text) :
    trim padded = text := by
  obtain ⟨before, after, hbefore, hafter, rfl⟩ := h
  cases text with
  | nil =>
    -- nothing but blanks, all of which are dropped at the front
    have hblank : ∀ c ∈ before ++ [] ++ after, isBlank c = true := by
      intro c hc
      rw [List.append_nil] at hc
      exact (List.mem_append.1 hc).elim (hbefore c) (hafter c)
    have hnone := dropWhile_blank hblank htext.first
    rw [List.append_nil (before ++ [] ++ after)] at hnone
    rw [trim, hnone]
    rfl
  | cons c text =>
    have hstart : (before ++ c :: text ++ after).dropWhile isBlank = c :: text ++ after := by
      rw [List.append_assoc]
      exact dropWhile_blank hbefore htext.first
    have hend : (after.reverse ++ (c :: text).reverse).dropWhile isBlank = (c :: text).reverse := by
      refine dropWhile_blank (fun d hd => hafter d (List.mem_reverse.1 hd)) ?_
      rw [List.head?_reverse]
      exact htext.last
    rw [trim, hstart, List.reverse_append, hend, List.reverse_reverse]

theorem Pads.not_mem {text padded : List Char} (h : Pads text padded) (hcolon : ':' ∉ text) :
    ':' ∉ padded := by
  obtain ⟨before, after, hbefore, hafter, rfl⟩ := h
  have hsolid : isBlank ':' = false := by decide
  intro hmem
  rcases List.mem_append.1 hmem with hmem | hmem
  · rcases List.mem_append.1 hmem with hmem | hmem
    · rw [hbefore _ hmem] at hsolid
      cases hsolid
    · exact hcolon hmem
  · rw [hafter _ hmem] at hsolid
    cases hsolid

/-- Plain texts are found again, all and in order, where they were joined with blanks around them. -/
theorem names_join {texts parts : List (List Char)} (h : List.Forall₂ Pads texts parts)
    (hne : texts ≠ []) (hplain : ∀ text ∈ texts, ':' ∉ text ∧ Trimmed text) :
    names (join parts) = texts := by
  have hparts : (∀ part ∈ parts, ':' ∉ part) ∧ parts.map trim = texts := by
    clear hne
    induction h with
    | nil => exact ⟨fun _ hmem => (by cases hmem), rfl⟩
    | cons hpads _ ih =>
      obtain ⟨hhead, hrest⟩ := List.forall_mem_cons.1 hplain
      obtain ⟨hcolons, htrims⟩ := ih hrest
      refine ⟨List.forall_mem_cons.2 ⟨hpads.not_mem hhead.1, hcolons⟩, ?_⟩
      rw [List.map_cons, hpads.trim_eq hhead.2, htrims]
  obtain ⟨hcolons, htrims⟩ := hparts
  have hne' : parts ≠ [] := by
    rintro rfl
    exact hne htrims.symm
  rw [names, segments_join hne' hcolons, htrims]

theorem of_mem_names {path name : List Char} (h : name ∈ names path) :
    Trimmed name ∧ Unjoined name := by
  obtain ⟨segment, hmem, rfl⟩ := List.mem_map.1 h
  refine ⟨trimmed_trim segment, fun hjoint => ?_⟩
  exact unjoined_of_mem_segments segment hmem (hjoint.trans (trim_isInfix segment))

end Text

/-! ## The names in a tag -/

namespace Kind

theorem lineage_eq_cons (kind : Kind) : ∃ above, kind.lineage = kind :: above := by
  cases kind with
  | root label => exact ⟨[], rfl⟩
  | under label parent => exact ⟨parent.lineage, rfl⟩

theorem mem_lineage_trans {kind above top : Kind} (habove : above ∈ kind.lineage)
    (htop : top ∈ above.lineage) : top ∈ kind.lineage := by
  induction kind with
  | root label =>
    rw [lineage_root, List.mem_singleton] at habove
    rwa [habove] at htop
  | under label parent ih =>
    rw [lineage_under, List.mem_cons] at habove
    rcases habove with rfl | habove
    · exact htop
    · exact List.mem_cons_of_mem _ (ih habove)

theorem toList_tag (kind : Kind) :
    kind.tag.toList = Text.join (kind.lineage.map fun ancestor => ancestor.name.toList) := by
  rw [tag, String.toList_ofList]

/-- The name of the kind can be told from the rest of its tag. -/
structure Legible (kind : Kind) : Prop where
  trimmed : Text.Trimmed kind.name.toList
  unjoined : Text.Unjoined kind.name.toList
  /-- A colon at the end would be taken for the separator, unless there is none. -/
  apart : kind.parent?.isSome → kind.name.toList.getLast? ≠ some ':'

theorem Legible.names_tag {kind : Kind} (h : kind.Legible) :
    ∃ others, Text.names kind.tag.toList = kind.name.toList :: others := by
  obtain ⟨rest, hsegments⟩ : ∃ rest, Text.segments kind.tag.toList = kind.name.toList :: rest := by
    rw [toList_tag]
    cases kind with
    | root label => exact ⟨[], Text.segments_eq_singleton h.unjoined⟩
    | under label parent =>
      obtain ⟨above, habove⟩ := parent.lineage_eq_cons
      rw [lineage_under, habove, List.map_cons, List.map_cons, Text.join]
      exact ⟨_, Text.segments_append (Text.unjoined_concat.2 ⟨h.unjoined, h.apart rfl⟩) _⟩
  refine ⟨rest.map Text.trim, ?_⟩
  rw [Text.names, hsegments, List.map_cons, h.trimmed.trim_eq]

/-- No name in the lineage has a colon in it or a blank at one of its ends. -/
def Plain (kind : Kind) : Prop :=
  ∀ ancestor ∈ kind.lineage, ':' ∉ ancestor.name.toList ∧ Text.Trimmed ancestor.name.toList

instance (kind : Kind) : Decidable kind.Plain :=
  inferInstanceAs (Decidable (∀ ancestor ∈ kind.lineage,
    ':' ∉ ancestor.name.toList ∧ Text.Trimmed ancestor.name.toList))

/-- The tag is that of the kind, with blanks around the names. -/
def Spells (kind : Kind) (tag : String) : Prop :=
  ∃ parts, List.Forall₂ Text.Pads (kind.lineage.map fun ancestor => ancestor.name.toList) parts ∧
    tag = String.ofList (Text.join parts)

theorem spells_tag (kind : Kind) : kind.Spells kind.tag :=
  ⟨_, List.forall₂_same.2 fun _ _ => .rfl, rfl⟩

theorem Plain.names_of_spells {kind : Kind} (h : kind.Plain) {tag : String} (htag : kind.Spells tag) :
    Text.names tag.toList = kind.lineage.map fun ancestor => ancestor.name.toList := by
  obtain ⟨parts, hparts, rfl⟩ := htag
  rw [String.toList_ofList]
  refine Text.names_join hparts ?_ fun name hname => ?_
  · obtain ⟨above, habove⟩ := kind.lineage_eq_cons
    rw [habove]
    exact List.cons_ne_nil _ _
  · obtain ⟨ancestor, hmem, rfl⟩ := List.mem_map.1 hname
    exact h ancestor hmem

end Kind

/-! ## Resolving a tag -/

/-- The kind found is registered under the name of the nearest kind of the lineage whose name is
registered. -/
def Registry.Nearest (registry : Registry) (kind found : Kind) : Prop :=
  ∃ nearer ancestor further, kind.lineage = nearer ++ ancestor :: further ∧
    (found ∈ registry.kinds ∧ found.name = ancestor.name) ∧
    ∀ unknown ∈ nearer, ∀ known ∈ registry.kinds, known.name ≠ unknown.name

namespace Report

/-- A tag is resolved to a known kind, or to the one for unknown kinds with a single event. -/
theorem resolve_eq_known_iff {registry : Registry} {tag : String} {kind : Kind} :
    resolve registry tag = (kind, []) ↔ knownKind? registry tag = some kind := by
  rw [resolve]
  cases knownKind? registry tag with
  | none => simp
  | some known => simp

theorem resolve_eq_unknown_iff {registry : Registry} {tag : String} :
    (∃ event, event.level = .debug ∧ resolve registry tag = (.externalUnknownError, [event])) ↔
      knownKind? registry tag = none := by
  rw [resolve]
  cases knownKind? registry tag with
  | none => simp [unknownKindEvent]
  | some known => simp

theorem knownKind?_of_spells {registry : Registry} {kind : Kind} (hplain : kind.Plain) {tag : String}
    (htag : kind.Spells tag) (hcode : registry.findByCode tag = none) :
    knownKind? registry tag =
      kind.lineage.findSome? fun ancestor => registry.findByName ancestor.name := by
  rw [knownKind?, hcode, Option.none_or, hplain.names_of_spells htag, List.findSome?_map]
  refine congrArg (List.findSome? · kind.lineage) (funext fun ancestor => ?_)
  rw [Function.comp_apply, String.ofList_toList]

/-- Every report is decoded, its kind as its tag is resolved. -/
theorem decodeWith_ok (registry : Registry) (report : Report) :
    ∃ failure, decodeWith registry report = .ok (failure, (resolve registry report.kind).2) ∧
      failure.kind = (resolve registry report.kind).1 := by
  obtain ⟨failure, events, hdecode, -⟩ := decodeWith_remote registry report
  obtain ⟨entries, -, h⟩ := bind_ok.1 hdecode
  obtain ⟨raw, hraw, h⟩ := map_ok.1 h
  obtain ⟨context, -, rfl⟩ := map_ok.1 hraw
  cases h
  exact ⟨_, hdecode, rfl⟩

/-- **The nearest known ancestor wins.** Where names are plain and no code is the tag, the tag of a kind
is resolved to the kind registered under the nearest name of the lineage, and to the one for unknown
kinds, with one event, exactly when none of the names is registered. Blanks around the names change
nothing. So when the names of the lineage belong to kinds of the lineage and one of them is registered,
what is decoded falls under a kind only if the original does. -/
theorem resolve_nearest {registry : Registry} (hreached : registry.Reached) {kind : Kind}
    (hplain : kind.Plain) (hcode : ∀ known ∈ registry.kinds, known.code ≠ kind.tag) :
    (∀ found, resolve registry kind.tag = (found, []) ↔ registry.Nearest kind found) ∧
    ((∃ event, event.level = .debug ∧
        resolve registry kind.tag = (.externalUnknownError, [event])) ↔
      ∀ ancestor ∈ kind.lineage, ∀ known ∈ registry.kinds, known.name ≠ ancestor.name) ∧
    (∀ tag, kind.Spells tag → (∀ known ∈ registry.kinds, known.code ≠ tag) →
      (resolve registry tag).1 = (resolve registry kind.tag).1 ∧
      (resolve registry tag).2.length = (resolve registry kind.tag).2.length) ∧
    ((∀ ancestor ∈ kind.lineage, ∀ known ∈ registry.kinds, known.name = ancestor.name →
        known ∈ kind.lineage) →
      (∃ ancestor ∈ kind.lineage, ∃ known ∈ registry.kinds, known.name = ancestor.name) →
      ∀ report, report.kind = kind.tag →
        ∃ decoded, decodeWith registry report = .ok (decoded, []) ∧
          ∀ other, decoded.isA other = true → kind.isA other = true) := by
  have hwf := hreached.wf
  have hknown : ∀ tag, kind.Spells tag → (∀ known ∈ registry.kinds, known.code ≠ tag) →
      knownKind? registry tag =
        kind.lineage.findSome? fun ancestor => registry.findByName ancestor.name :=
    fun tag htag hfree => knownKind?_of_spells hplain htag (hwf.findByCode_eq_none_iff.2 hfree)
  have htag := hknown kind.tag kind.spells_tag hcode
  have hnearest : ∀ found, resolve registry kind.tag = (found, []) ↔
      registry.Nearest kind found := by
    intro found
    rw [resolve_eq_known_iff, htag, List.findSome?_eq_some_iff]
    simp only [hwf.findByName_eq_some_iff, hwf.findByName_eq_none_iff]
    rfl
  refine ⟨hnearest, ?_, fun tag hspells hfree => ?_, fun hnamesakes hsome report hreport => ?_⟩
  · rw [resolve_eq_unknown_iff, htag, List.findSome?_eq_none_iff]
    simp only [hwf.findByName_eq_none_iff]
  · have hsame : knownKind? registry tag = knownKind? registry kind.tag := by
      rw [hknown tag hspells hfree, htag]
    rw [resolve, resolve, hsame]
    cases knownKind? registry kind.tag with
    | none => exact ⟨rfl, rfl⟩
    | some known => exact ⟨rfl, rfl⟩
  · obtain ⟨decoded, hdecode, hkind⟩ := decodeWith_ok registry report
    obtain ⟨found, hfound⟩ : ∃ found, knownKind? registry kind.tag = some found := by
      rw [← Option.ne_none_iff_exists', htag, Ne, List.findSome?_eq_none_iff]
      intro hnone
      obtain ⟨ancestor, hmem, known, hknown, hname⟩ := hsome
      exact hwf.findByName_eq_none_iff.1 (hnone ancestor hmem) known hknown hname
    have hresolve := resolve_eq_known_iff.2 hfound
    rw [hreport, hresolve] at hdecode hkind
    refine ⟨decoded, hdecode, fun other hother => ?_⟩
    obtain ⟨nearer, ancestor, further, hlineage, ⟨hmem, hname⟩, -⟩ := (hnearest found).1 hresolve
    have hancestor : ancestor ∈ kind.lineage := by
      rw [hlineage]
      exact List.mem_append_right _ List.mem_cons_self
    have hfalls : found ∈ kind.lineage := hnamesakes ancestor hancestor found hmem hname
    rw [Failure.isA, hkind] at hother
    exact Kind.isA_iff.2 (Kind.mem_lineage_trans hfalls (Kind.isA_iff.1 hother))

/-- A kind of another process, below a standard one. -/
def couponExpired : Kind :=
  .under { serial := 14, name := "CouponExpired", code := "C1" } .validationError

theorem couponExpired_resolve_nearest :
    Registry.withBuiltins.Reached ∧ couponExpired.Plain ∧
    (∀ known ∈ Registry.withBuiltins.kinds, known.code ≠ couponExpired.tag) ∧
    resolve .withBuiltins couponExpired.tag = (.validationError, []) ∧
    (resolve .withBuiltins "CouponExpired :: ValidationError::UserError::Error").1 =
      .validationError ∧
    ∃ decoded, decodeWith .withBuiltins ⟨"expired", couponExpired.tag, none⟩ = .ok (decoded, []) ∧
      ∀ other, decoded.isA other = true → couponExpired.isA other = true := by
  have hreached : Registry.withBuiltins.Reached := .withBuiltins
  have hplain : couponExpired.Plain := by decide
  have hcode : ∀ known ∈ Registry.withBuiltins.kinds, known.code ≠ couponExpired.tag := by decide
  obtain ⟨hnearest, -, hpadded, hdecoded⟩ := resolve_nearest hreached hplain hcode
  have hfound : resolve .withBuiltins couponExpired.tag = (.validationError, []) := by
    refine (hnearest .validationError).2 ⟨[couponExpired], .validationError, [.userError, .error], ?_⟩
    exact ⟨rfl, ⟨by decide, rfl⟩, by decide⟩
  have hspells : couponExpired.Spells "CouponExpired :: ValidationError::UserError::Error" := by
    refine ⟨["CouponExpired ".toList, " ValidationError".toList, "UserError".toList, "Error".toList],
      .cons ?_ (.cons ?_ (.cons .rfl (.cons .rfl .nil))), by decide⟩
    · exact ⟨[], [' '], List.forall_mem_nil _, List.forall_mem_singleton.2 rfl, rfl⟩
    · exact ⟨[' '], [], List.forall_mem_singleton.2 rfl, List.forall_mem_nil _, rfl⟩
  refine ⟨hreached, hplain, hcode, hfound, ?_, ?_⟩
  · rw [(hpadded _ hspells (by decide)).1, hfound]
  · exact hdecoded (by decide) ⟨.validationError, by decide, .validationError, by decide, rfl⟩ _ rfl

/-- **A registered kind is resolved to itself** when its tag is its code, or when no code is the tag and
its name can be told from the rest of it, so a failure keeps its kind on the way to another process. It
is not when its tag is not its code but another one's, or has a name with blanks at the ends or a double
colon. -/
theorem resolve_registered {registry : Registry} (hreached : registry.Reached) {kind : Kind}
    (hmem : kind ∈ registry.kinds) :
    (kind.code = kind.tag ∨ kind.Legible ∧ (∀ other ∈ registry.kinds, other.code ≠ kind.tag) →
      resolve registry kind.tag = (kind, []) ∧
      ∀ failure, failure.kind = kind →
        ∃ decoded, decodeWith registry (encode failure) = .ok (decoded, []) ∧
          decoded.kind = kind) ∧
    (resolve registry kind.tag = (kind, []) →
      kind.code = kind.tag ∨ Text.Trimmed kind.name.toList ∧ Text.Unjoined kind.name.toList ∧
        ∀ other ∈ registry.kinds, other.code ≠ kind.tag) := by
  have hwf := hreached.wf
  constructor
  · intro hfound
    have hresolve : resolve registry kind.tag = (kind, []) := by
      rw [resolve_eq_known_iff, knownKind?]
      rcases hfound with hcode | ⟨hlegible, hfree⟩
      · rw [hwf.findByCode_eq_some_iff.2 ⟨hmem, hcode⟩, Option.some_or]
      · obtain ⟨others, hnames⟩ := hlegible.names_tag
        have hself : registry.findByName kind.name = some kind :=
          hwf.findByName_eq_some_iff.2 ⟨hmem, rfl⟩
        rw [hwf.findByCode_eq_none_iff.2 hfree, Option.none_or, hnames, List.findSome?_cons,
          String.ofList_toList, hself]
    refine ⟨hresolve, fun failure hkind => ?_⟩
    obtain ⟨decoded, hdecode, hdecoded⟩ := decodeWith_ok registry (encode failure)
    have htag : (encode failure).kind = kind.tag := by rw [encode, hkind]
    rw [htag, hresolve] at hdecode hdecoded
    exact ⟨decoded, hdecode, hdecoded⟩
  · intro hresolve
    rw [resolve_eq_known_iff, knownKind?] at hresolve
    cases hcode : registry.findByCode kind.tag with
    | some other =>
      rw [hcode, Option.some_or] at hresolve
      cases hresolve
      exact .inl (hwf.findByCode_eq_some_iff.1 hcode).2
    | none =>
      rw [hcode, Option.none_or] at hresolve
      obtain ⟨name, hname, hfound⟩ := List.exists_of_findSome?_eq_some hresolve
      -- the name was found in the tag, so it is like all that is found there
      obtain ⟨htrimmed, hunjoined⟩ := Text.of_mem_names hname
      have hself : kind.name.toList = name := by
        rw [(hwf.findByName_eq_some_iff.1 hfound).2, String.toList_ofList]
      rw [hself]
      exact .inr ⟨htrimmed, hunjoined, hwf.findByCode_eq_none_iff.1 hcode⟩

/-- A kind whose name has a colon in it, below a standard one. -/
def diskFull : Kind := .under { serial := 14, name := "Disk:Full", code := "D1" } .systemError

theorem diskFull_resolve_registered :
    (Registry.withBuiltins.register [diskFull]).1.Reached ∧
    diskFull ∈ (Registry.withBuiltins.register [diskFull]).1.kinds ∧ diskFull.Legible ∧
    (∀ other ∈ (Registry.withBuiltins.register [diskFull]).1.kinds, other.code ≠ diskFull.tag) ∧
    resolve (Registry.withBuiltins.register [diskFull]).1 diskFull.tag = (diskFull, []) := by
  have hreached : (Registry.withBuiltins.register [diskFull]).1.Reached := .register .withBuiltins _
  have hmem : diskFull ∈ (Registry.withBuiltins.register [diskFull]).1.kinds := by decide
  have hlegible : diskFull.Legible := ⟨by decide, by decide, by decide⟩
  have hfree : ∀ other ∈ (Registry.withBuiltins.register [diskFull]).1.kinds,
      other.code ≠ diskFull.tag := by decide
  have hresolve := ((resolve_registered hreached hmem).1 (.inr ⟨hlegible, hfree⟩)).1
  exact ⟨hreached, hmem, hlegible, hfree, hresolve⟩

/-- Kinds that are registered but not found by their tags: the first since another has its tag for a
code, the others since their names cannot be told from the rest of the tag. -/
def lostKinds : List Kind :=
  [.root { serial := 14, name := "Lost", code := "L1" },
   .root { serial := 15, name := " Blank", code := "L2" },
   .root { serial := 16, name := "Disk::Full", code := "L3" },
   .under { serial := 17, name := "Disk:", code := "L4" } .error]

/-- The kind that has a tag for a code. -/
def shadowing : Kind := .root { serial := 18, name := "Timeout", code := "Lost" }

/-- Without these conditions registered kinds are lost, although every one of them was accepted. -/
theorem lostKinds_not_resolved :
    (Registry.empty.register (shadowing :: lostKinds)).2 = none ∧
    ∀ kind ∈ lostKinds, kind ∈ (Registry.empty.register (shadowing :: lostKinds)).1.kinds ∧
      (resolve (Registry.empty.register (shadowing :: lostKinds)).1 kind.tag).1 ≠ kind := by
  decide

end Report

end Faults
