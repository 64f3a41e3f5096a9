import Formulary.Proofs.Name.LoweredSeparators
import Formulary.Solution.Parameter

/-!
# The union of the tiers

A text that is not empty contains itself, so names that match as a whole in one of their forms match
at the loosest tier too. The one exception are forms that are empty, which a token with a character
that is no white space has only after cleaning, where empty forms never match:
`matches_part_of_matches`. Hence the records that such a token references are those at the loosest
tier, the first one of each identity, `referenced_eq_eraseDupsBy`, and what it is resolved to is
among them. The best record is the first match at the first tier of whole names that has any,
`resolveBest_eq_some_iff`.
-/

set_option autoImplicit false
set_option relaxedAutoImplicit false

namespace Formulary.Name

open Formulary.Text

/-! ### Texts that contain each other -/

section

variable {first second : List Char}

theorem containsEither_comm (first second : List Char) :
    containsEither first second = containsEither second first := by
  rw [containsEither, containsEither, Bool.and_comm (!first.isEmpty), Bool.or_comm]

theorem containsEither_of_occursIn (hfirst : first ≠ []) (hoccurs : occursIn first second = true) :
    containsEither first second = true := by
  have hsecond : second ≠ [] := by
    obtain ⟨left, right, hsplit⟩ := (occursIn_iff _ _).mp hoccurs
    simp [hsplit, hfirst]
  rw [containsEither, hoccurs, List.isEmpty_eq_false_iff.mpr hfirst,
    List.isEmpty_eq_false_iff.mpr hsecond, Bool.or_true]
  rfl

theorem containsEither_of_eq (hfirst : first ≠ []) (hsame : first = second) :
    containsEither first second = true :=
  containsEither_of_occursIn hfirst ((occursIn_iff _ _).mpr ⟨[], [], by simp [hsame]⟩)

theorem infix_of_containsEither (hcontains : containsEither first second = true) :
    second <:+: first ∨ first <:+: second := by
  rw [containsEither, Bool.and_eq_true, Bool.or_eq_true, occursIn_iff_isInfix,
    occursIn_iff_isInfix] at hcontains
  exact hcontains.2

end

/-! ### The loosest tier -/

section

variable {token name : String} {tier : Tier}

/-- Names match at the loosest tier where one contains the other in one of the four forms. -/
theorem matches_part_iff : Tier.part.matches token name = true ↔
    containsEither (Forms.of token).lowered (Forms.of name).lowered = true ∨
      containsEither (Forms.of token).cleaned (Forms.of name).cleaned = true ∨
      containsEither (Forms.of token).normalized (Forms.of name).normalized = true ∨
      containsEither (Forms.of token).trimmed (Forms.of name).trimmed = true := by
  simp only [Tier.matches, Forms.agree, Forms.levels, List.zip_cons_cons, List.zip_nil_right,
    List.any_cons, List.any_nil, Bool.or_eq_true, Bool.or_false]

/-- Of a token that is not blank no form is empty but the cleaned one. -/
theorem forms_ne_nil (htoken : isBlankName token = false) :
    (Forms.of token).lowered ≠ [] ∧ (Forms.of token).normalized ≠ [] ∧
      (Forms.of token).trimmed ≠ [] := by
  have htrimmed : trim token.toList ≠ [] :=
    mt (isBlank_iff_trim_eq_nil _).mpr (Bool.eq_false_iff.mp htoken)
  have hlowered : lower token.toList ≠ [] := by
    refine mt (lower_eq_nil_iff _).mp fun hempty ↦ ?_
    rw [isBlankName, hempty] at htoken
    cases htoken
  refine ⟨hlowered, collapseRuns_ne_nil hlowered, ?_⟩
  show trim (lower token.toList) ≠ []
  rw [trim_lower]
  exact mt (lower_eq_nil_iff _).mp htrimmed

/-- What a token that is not blank matches at any tier, it matches at the loosest one. -/
theorem matches_part_of_matches (htoken : isBlankName token = false)
    (hmatches : tier.matches token name = true) : Tier.part.matches token name = true := by
  obtain ⟨hlowered, hnormalized, htrimmed⟩ := forms_ne_nil htoken
  rw [matches_part_iff]
  cases tier with
  | exact => exact Or.inl (containsEither_of_eq hlowered (beq_iff_eq.mp hmatches))
  | cleaned =>
    rw [Tier.matches, Forms.agree, Bool.and_eq_true, beq_iff_eq, Bool.not_eq_true',
      List.isEmpty_eq_false_iff] at hmatches
    exact Or.inr (Or.inl (containsEither_of_eq hmatches.1 hmatches.2))
  | normalized =>
    exact Or.inr (Or.inr (Or.inl (containsEither_of_eq hnormalized (beq_iff_eq.mp hmatches))))
  | trimmed =>
    exact Or.inr (Or.inr (Or.inr (containsEither_of_eq htrimmed (beq_iff_eq.mp hmatches))))
  | part => exact matches_part_iff.mp hmatches

theorem exists_matches_iff (htoken : isBlankName token = false) :
    (∃ tier ∈ Tier.all, tier.matches token name = true) ↔
      Tier.part.matches token name = true :=
  ⟨fun ⟨_, _, hmatches⟩ ↦ matches_part_of_matches htoken hmatches,
    fun hmatches ↦ ⟨.part, by decide, hmatches⟩⟩

end

section

variable {Entry : Type} [Named Entry] {token id : String} {record : Entry} {records : List Entry}
variable {tier : Tier} {tiers : List Tier} {found : List Entry}

/-! ### Records of whole names -/

theorem mem_resolveAt_iff : record ∈ resolveAt token records tier ↔
    record ∈ records ∧ tier.matches token (Named.name record) = true :=
  List.mem_filter

/-- A tier has no records where none matches. -/
theorem resolveAt_eq_nil_iff : resolveAt token records tier = [] ↔
    ∀ record ∈ records, tier.matches token (Named.name record) = false := by
  rw [resolveAt, List.filter_eq_nil_iff]
  exact forall₂_congr fun record _ ↦ Bool.eq_false_iff.symm

/-- The first record at a tier is the first one that matches. -/
theorem head?_resolveAt_eq_some_iff : (resolveAt token records tier).head? = some record ↔
    ∃ front back, records = front ++ record :: back ∧
      tier.matches token (Named.name record) = true ∧
      ∀ earlier ∈ front, tier.matches token (Named.name earlier) = false := by
  rw [resolveAt, List.head?_filter, List.find?_eq_some_iff_append]
  simp only [Bool.not_eq_true']
  exact ⟨fun ⟨hmatches, front, back, hsplit, hfront⟩ ↦ ⟨front, back, hsplit, hmatches, hfront⟩,
    fun ⟨front, back, hsplit, hmatches, hfront⟩ ↦ ⟨hmatches, front, back, hsplit, hfront⟩⟩

/-- A token is resolved at the first tier that has any records, and to all of them. -/
theorem resolveAmong_eq_some_iff : resolveAmong token records tiers = some (tier, found) ↔
    ∃ stricter looser, tiers = stricter ++ tier :: looser ∧
      (∀ other ∈ stricter, resolveAt token records other = []) ∧
      found = resolveAt token records tier ∧ found ≠ [] := by
  induction tiers with
  | nil => simp [resolveAmong]
  | cons first tiers ih =>
    rw [resolveAmong]
    by_cases hfirst : resolveAt token records first = []
    · rw [if_pos (List.isEmpty_iff.mpr hfirst), ih]
      constructor
      · rintro ⟨stricter, looser, rfl, hstricter, hfound⟩
        exact ⟨first :: stricter, looser, rfl, List.forall_mem_cons.mpr ⟨hfirst, hstricter⟩, hfound⟩
      · rintro ⟨stricter, looser, hsplit, hstricter, hfound, hsome⟩
        cases stricter with
        | nil =>
          obtain ⟨rfl, -⟩ := List.cons.inj hsplit
          exact absurd (hfound.trans hfirst) hsome
        | cons other stricter =>
          obtain ⟨-, rfl⟩ := List.cons.inj hsplit
          exact ⟨stricter, looser, rfl, (List.forall_mem_cons.mp hstricter).2, hfound, hsome⟩
    · rw [if_neg (mt List.isEmpty_iff.mp hfirst), Option.some_inj, Prod.mk.injEq]
      constructor
      · rintro ⟨rfl, rfl⟩
        exact ⟨[], tiers, rfl, by simp, rfl, hfirst⟩
      · rintro ⟨stricter, looser, hsplit, hstricter, rfl, -⟩
        cases stricter with
        | nil =>
          obtain ⟨rfl, -⟩ := List.cons.inj hsplit
          exact ⟨rfl, rfl⟩
        | cons other stricter =>
          obtain ⟨rfl, -⟩ := List.cons.inj hsplit
          exact absurd (hstricter first List.mem_cons_self) hfirst

/-- A token is resolved where some record matches it at one of the tiers. -/
theorem isSome_resolveAmong_iff : (resolveAmong token records tiers).isSome = true ↔
    ∃ tier ∈ tiers, ∃ record ∈ records, tier.matches token (Named.name record) = true := by
  induction tiers with
  | nil => simp [resolveAmong]
  | cons tier tiers ih =>
    have hhere : resolveAt token records tier ≠ [] ↔
        ∃ record ∈ records, tier.matches token (Named.name record) = true := by
      simp [resolveAt]
    rw [resolveAmong, List.exists_mem_cons_iff, ← hhere, ← ih]
    by_cases hfound : resolveAt token records tier = []
    · rw [if_pos (List.isEmpty_iff.mpr hfound)]
      exact (or_iff_right (not_not.mpr hfound)).symm
    · rw [if_neg (mt List.isEmpty_iff.mp hfound)]
      exact iff_of_true rfl (Or.inl hfound)

/-- The best record is the first one that matches at the first tier of whole names at which any
does. -/
theorem resolveBest_eq_some_iff : resolveBest token records = some record ↔
    ∃ stricter tier looser, Tier.wholes = stricter ++ tier :: looser ∧
      (∀ other ∈ stricter, ∀ candidate ∈ records,
        other.matches token (Named.name candidate) = false) ∧
      ∃ front back, records = front ++ record :: back ∧
        tier.matches token (Named.name record) = true ∧
        ∀ earlier ∈ front, tier.matches token (Named.name earlier) = false := by
  rw [resolveBest, Option.bind_eq_some_iff]
  constructor
  · rintro ⟨⟨tier, found⟩, hresolved, hfirst⟩
    obtain ⟨stricter, looser, hsplit, hstricter, rfl, -⟩ := resolveAmong_eq_some_iff.mp hresolved
    exact ⟨stricter, tier, looser, hsplit,
      fun other hother ↦ resolveAt_eq_nil_iff.mp (hstricter other hother),
      head?_resolveAt_eq_some_iff.mp hfirst⟩
  · rintro ⟨stricter, tier, looser, hsplit, hstricter, hsplits⟩
    have hfirst := head?_resolveAt_eq_some_iff.mpr hsplits
    have hsome : resolveAt token records tier ≠ [] :=
      fun hnone ↦ by rw [hnone] at hfirst; cases hfirst
    exact ⟨(tier, resolveAt token records tier), resolveAmong_eq_some_iff.mpr ⟨stricter, looser,
      hsplit, fun other hother ↦ resolveAt_eq_nil_iff.mpr (hstricter other hother), rfl, hsome⟩,
      hfirst⟩

/-! ### Records that are referenced -/

/-- Of each identity that did not occur before, a record is kept. -/
theorem mem_identities_distinctFrom_iff {seen : List String} :
    id ∈ (distinctFrom seen records).map Named.identity ↔
      id ∉ seen ∧ id ∈ records.map Named.identity := by
  induction records generalizing seen with
  | nil => simp [distinctFrom]
  | cons first rest ih =>
    rw [distinctFrom]
    by_cases hseen : Named.identity first ∈ seen
    · have hother (hnew : id ∉ seen) : id ≠ Named.identity first := fun h ↦ hnew (h ▸ hseen)
      rw [if_pos (List.contains_iff_mem.mpr hseen), ih, List.map_cons, List.mem_cons]
      exact and_congr_right fun hnew ↦ (or_iff_right (hother hnew)).symm
    · rw [if_neg (mt List.contains_iff_mem.mp hseen), List.map_cons, List.map_cons, List.mem_cons,
        List.mem_cons, ih, List.mem_cons, not_or]
      by_cases hfirst : id = Named.identity first
      · simp [hfirst, hseen]
      · simp [hfirst]

/-- Of the records of identities that did not occur before, the first one of each is kept. -/
theorem distinctFrom_eq_eraseDupsBy (seen : List String) (records : List Entry) :
    distinctFrom seen records =
      (records.filter fun record ↦ !seen.contains (Named.identity record)).eraseDupsBy
        fun one other ↦ Named.identity one == Named.identity other := by
  induction records generalizing seen with
  | nil => rfl
  | cons first rest ih =>
    rw [distinctFrom]
    cases hseen : seen.contains (Named.identity first) with
    | true => rw [if_pos rfl, ih, List.filter_cons_of_neg (by rw [hseen]; decide)]
    | false =>
      rw [if_neg Bool.false_ne_true, ih, List.filter_cons_of_pos (by rw [hseen]; rfl),
        List.eraseDupsBy_cons, List.filter_filter]
      congr 2
      refine List.filter_congr fun other _ ↦ ?_
      rw [List.contains_cons, Bool.not_or, Bool.decide_eq_false, Bool.beq_comm]

/-- A token references the identities of the records that it matches at some tier. -/
theorem mem_identities_referenced_iff : id ∈ (referenced token records).map Named.identity ↔
    ∃ record ∈ records, Named.identity record = id ∧
      ∃ tier ∈ Tier.all, tier.matches token (Named.name record) = true := by
  rw [referenced, mem_identities_distinctFrom_iff]
  simp only [List.not_mem_nil, not_false_eq_true, true_and, List.mem_map, List.mem_filter,
    List.any_eq_true]
  constructor
  · rintro ⟨record, ⟨hrecord, hmatches⟩, hid⟩
    exact ⟨record, hrecord, hid, hmatches⟩
  · rintro ⟨record, hrecord, hid, hmatches⟩
    exact ⟨record, ⟨hrecord, hmatches⟩, hid⟩

/-- A token that is not blank references the records at the loosest tier, the first one of each
identity. -/
theorem referenced_eq_eraseDupsBy (htoken : isBlankName token = false) (records : List Entry) :
    referenced token records = (resolveAt token records .part).eraseDupsBy
      fun one other ↦ Named.identity one == Named.identity other := by
  have hfilter : (records.filter fun record ↦
      Tier.all.any fun tier ↦ tier.matches token (Named.name record)) =
      resolveAt token records .part := by
    refine List.filter_congr fun record _ ↦ ?_
    rw [Bool.eq_iff_iff, List.any_eq_true, exists_matches_iff htoken]
  rw [referenced, hfilter, distinctFrom_eq_eraseDupsBy]
  simp only [List.contains_nil, Bool.not_false, List.filter_true]

/-- What a token is resolved to, it references, up to records of one identity. -/
theorem mem_identities_referenced_of_resolve
    (hresolved : resolve token records = some (tier, found)) (hrecord : record ∈ found) :
    Named.identity record ∈ (referenced token records).map Named.identity := by
  obtain ⟨stricter, looser, hsplit, -, rfl, -⟩ := resolveAmong_eq_some_iff.mp hresolved
  obtain ⟨hmember, hmatches⟩ := mem_resolveAt_iff.mp hrecord
  refine mem_identities_referenced_iff.mpr ⟨record, hmember, rfl, tier, ?_, hmatches⟩
  have hwhole : tier ∈ Tier.wholes := hsplit ▸ List.mem_append_right _ List.mem_cons_self
  exact List.mem_append_left [Tier.part] hwhole

end

/-! ### A token that is not blank -/

/-- A token with a character that is no white space matches at the loosest tier whatever it matches
at a tier of whole names. So it references the records at the loosest tier, the first one of each
identity; the identity of whatever it is resolved to is among theirs; and its best record is the
first one that matches at the first tier of whole names at which any does. -/
theorem loosest_tier_covers_wholes {token : String}
    (htoken : ∃ character ∈ token.toList, isWhiteSpace character = false) :
    (∀ tier ∈ Tier.wholes, ∀ name : String, tier.matches token name = true →
      Tier.part.matches token name = true) ∧
    ∀ {Entry : Type} [Named Entry] (records : List Entry),
      referenced token records = ((resolveAt token records .part).eraseDupsBy
        fun one other ↦ Named.identity one == Named.identity other) ∧
      (∀ tier found, resolve token records = some (tier, found) → ∀ record ∈ found,
        Named.identity record ∈ (referenced token records).map Named.identity) ∧
      ∀ record, resolveBest token records = some record ↔
        ∃ stricter tier looser, Tier.wholes = stricter ++ tier :: looser ∧
          (∀ other ∈ stricter, ∀ candidate ∈ records,
            other.matches token (Named.name candidate) = false) ∧
          ∃ front back, records = front ++ record :: back ∧
            tier.matches token (Named.name record) = true ∧
            ∀ earlier ∈ front, tier.matches token (Named.name earlier) = false := by
  have hblank : isBlankName token = false := isBlank_eq_false_iff.mpr htoken
  refine ⟨fun tier _ name ↦ matches_part_of_matches hblank, fun {Entry} _ records ↦ ⟨?_, ?_, ?_⟩⟩
  · exact referenced_eq_eraseDupsBy hblank records
  · exact fun tier found hresolved record ↦ mem_identities_referenced_of_resolve hresolved
  · exact fun record ↦ resolveBest_eq_some_iff

/-- The best record is found in small letters behind two others that only contain the token; of
those two, which have one identity, the first is referenced. -/
theorem loosest_tier_covers_energy :
    let records : List Parameter := [{ id := "p1", name := "Energy Price" },
      { id := "p1", name := "Renewable energy" }, { id := "p2", name := "ENERGY" }]
    (∃ character ∈ "energy".toList, isWhiteSpace character = false) ∧
      Tier.part.matches "energy" "ENERGY" = true ∧
      (referenced "energy" records).map (·.name) = ["Energy Price", "ENERGY"] ∧
      (resolveBest "energy" records).map (·.name) = some "ENERGY" := by
  intro records
  have htoken : ∃ character ∈ "energy".toList, isWhiteSpace character = false :=
    ⟨'e', by decide, by decide⟩
  obtain ⟨hcovered, hrecords⟩ := loosest_tier_covers_wholes htoken
  obtain ⟨hreferenced, -, hbest⟩ := hrecords records
  refine ⟨htoken, hcovered .exact (by decide) "ENERGY" (by decide +kernel), ?_, ?_⟩
  · rw [hreferenced]
    decide +kernel
  · rw [(hbest { id := "p2", name := "ENERGY" }).mpr ⟨[], .exact, [.cleaned, .normalized, .trimmed],
      rfl, by simp, records.take 2, [], rfl, by decide +kernel, by decide +kernel⟩]
    rfl

end Formulary.Name
