import Formulary.Proofs.Substitution.WholeWords

/-!
# Names left over by a substitution

A name that stands in a substituted text was there before: replacements hold nothing that starts a
name, and what they are put in place of has no plain character next to it, so no name can come up
or grow. The main statement is `standsIn_of_standsIn_replaceFrom`.
-/

set_option autoImplicit false
set_option relaxedAutoImplicit false

namespace Formulary.Name

open Formulary.Text

/-- Rules whose names, in ASCII text, have plain edges, and whose replacements hold nothing that
starts a name. -/
structure Inert (rules : List Rule) : Prop where
  edges : ∀ rule ∈ rules, (∀ character ∈ rule.name, character.toNat < 128) →
    hasPlainEdges rule.name = true
  names : ∀ rule ∈ rules, ∀ character ∈ rule.replacement, isPlainStart character = false

variable {rules : List Rule} {before : Option Char} {text result : List Char}

/-- Where a rule applies in ASCII text, it starts and ends with a plain character, and none is next
to it. -/
theorem Inert.apart (hinert : Inert rules) {rule : Rule} (hrule : rule ∈ rules) {rest : List Char}
    (hascii : ∀ character ∈ rule.name ++ rest, character.toNat < 128)
    (hoccurs : occursAt rule.name before (rule.name ++ rest) = true) :
    hasPlainEdges rule.name = true ∧ before.any isPlainCharacter = false ∧
      rest.head?.any isPlainCharacter = false := by
  have hedges := hinert.edges rule hrule fun character hcharacter ↦
    hascii character (List.mem_append_left rest hcharacter)
  obtain ⟨behind, htext, hbefore, hbehind⟩ := (occursAt_iff hedges _).mp hoccurs
  obtain rfl := List.append_cancel_left htext
  exact ⟨hedges, not_plain_of_not_word hbefore, not_plain_of_not_word hbehind⟩

theorem head?_append_of_hasPlainEdges {name : List Char} (hedges : hasPlainEdges name = true)
    (rest : List Char) : (name ++ rest).head?.any isPlainCharacter = true := by
  obtain ⟨first, others, rfl⟩ := List.exists_cons_of_ne_nil (ne_nil_of_hasPlainEdges hedges)
  rw [hasPlainEdges, Bool.and_eq_true] at hedges
  exact hedges.1

/-- A text that does not start with a plain character is not made to start with one. -/
theorem Replaces.head? (hreplaces : Replaces rules before text result) (hinert : Inert rules)
    (hascii : ∀ character ∈ text, character.toNat < 128)
    (hhead : text.head?.any isPlainCharacter = false) :
    result.head?.any isPlainCharacter = false := by
  cases hreplaces with
  | nil => rfl
  | keep _ _ => exact hhead
  | replace hrule hoccurs _ =>
    obtain ⟨hedges, _, _⟩ := hinert.apart hrule hascii hoccurs
    rw [head?_append_of_hasPlainEdges hedges] at hhead
    cases hhead

/-- What goes on behind a plain character is kept as long as it is plain. -/
theorem Replaces.run (hreplaces : Replaces rules before text result) (hinert : Inert rules)
    (hascii : ∀ character ∈ text, character.toNat < 128)
    (hbefore : before.any isPlainCharacter = true) {word back : List Char}
    (hword : word.all isPlainCharacter = true) (hback : back.head?.any isPlainCharacter = false)
    (hresult : result = word ++ back) :
    ∃ behind, text = word ++ behind ∧ behind.head?.any isPlainCharacter = false := by
  induction word generalizing before text result with
  | nil =>
    refine ⟨text, rfl, ?_⟩
    cases hreplaces with
    | nil => rfl
    | keep _ _ =>
      rw [← List.nil_append back, ← hresult] at hback
      exact hback
    | replace hrule hoccurs _ =>
      obtain ⟨_, hother, _⟩ := hinert.apart hrule hascii hoccurs
      exact absurd (hother.symm.trans hbefore) Bool.false_ne_true
  | cons character word ih =>
    rw [List.all_cons, Bool.and_eq_true] at hword
    cases hreplaces with
    | nil => cases hresult
    | keep _ hrest =>
      obtain ⟨rfl, hrun⟩ := List.cons.inj hresult
      obtain ⟨behind, rfl, hbehind⟩ := ih hrest
        (fun other hother ↦ hascii other (List.mem_cons_of_mem _ hother)) hword.1 hword.2 hrun
      exact ⟨behind, rfl, hbehind⟩
    | replace hrule hoccurs _ =>
      obtain ⟨_, hother, _⟩ := hinert.apart hrule hascii hoccurs
      exact absurd (hother.symm.trans hbefore) Bool.false_ne_true

/-- A name behind a replacement that holds nothing that starts a name lies beyond it. -/
theorem exists_gap_of_append_eq {replacement name front back : List Char}
    (hnone : ∀ character ∈ replacement, isPlainStart character = false)
    (hapart : result.head?.any isPlainCharacter = false)
    (hfirst : name.head?.any isPlainStart = true)
    (hsplit : replacement ++ result = front ++ (name ++ back)) :
    ∃ gap, gap ≠ [] ∧ front = replacement ++ gap ∧ result = gap ++ (name ++ back) := by
  obtain ⟨first, others, rfl⟩ : ∃ first others, name = first :: others := by
    cases name with
    | nil => cases hfirst
    | cons first others => exact ⟨first, others, rfl⟩
  have hstart : isPlainStart first = true := hfirst
  have hbehind : result ≠ first :: others ++ back := by
    rintro rfl
    have hhead : isPlainCharacter first = false := hapart
    exact absurd (hhead.symm.trans (isPlainCharacter_of_isPlainStart hstart)) Bool.false_ne_true
  rcases List.append_eq_append_iff.mp hsplit with ⟨gap, rfl, hgap⟩ | ⟨gap, hgap, htail⟩
  · refine ⟨gap, ?_, rfl, hgap⟩
    rintro rfl
    exact hbehind hgap
  · cases gap with
    | nil => exact absurd htail.symm hbehind
    | cons other gap =>
      obtain ⟨rfl, _⟩ := List.cons.inj htail
      have hother := hnone first (by rw [hgap]; simp)
      exact absurd (hother.symm.trans hstart) Bool.false_ne_true

/-- A name with no plain character next to it in a substituted text stands in the text. -/
theorem Replaces.exists_of_name (hreplaces : Replaces rules before text result)
    (hinert : Inert rules) (hascii : ∀ character ∈ text, character.toNat < 128)
    {name front back : List Char} (hfirst : name.head?.any isPlainStart = true)
    (hname : name.all isPlainCharacter = true) (hresult : result = front ++ (name ++ back))
    (hfront : (lastOr before front).any isPlainCharacter = false)
    (hback : back.head?.any isPlainCharacter = false) :
    ∃ ahead behind, text = ahead ++ (name ++ behind) ∧
      (lastOr before ahead).any isPlainCharacter = false ∧
        behind.head?.any isPlainCharacter = false := by
  induction hreplaces generalizing front with
  | nil =>
    cases name with
    | nil => cases hfirst
    | cons first others => cases front <;> cases hresult
  | @keep before character rest result hnone hrest ih =>
    have hlater : ∀ other ∈ rest, other.toNat < 128 :=
      fun other hother ↦ hascii other (List.mem_cons_of_mem _ hother)
    cases front with
    | cons first front =>
      obtain ⟨rfl, hlast⟩ := List.cons.inj hresult
      rw [lastOr_cons] at hfront
      obtain ⟨ahead, behind, rfl, hahead, hbehind⟩ := ih hlater hlast hfront
      exact ⟨character :: ahead, behind, rfl, by rwa [lastOr_cons], hbehind⟩
    | nil =>
      cases name with
      | nil => cases hfirst
      | cons first others =>
        obtain ⟨rfl, hrun⟩ := List.cons.inj hresult
        rw [List.all_cons, Bool.and_eq_true] at hname
        obtain ⟨behind, rfl, hbehind⟩ := hrest.run hinert hlater hname.1 hname.2 hback hrun
        exact ⟨[], behind, rfl, hfront, hbehind⟩
  | @replace before rule rest result hrule hoccurs hrest ih =>
    obtain ⟨_, _, hapart⟩ := hinert.apart hrule hascii hoccurs
    have hlater : ∀ other ∈ rest, other.toNat < 128 :=
      fun other hother ↦ hascii other (List.mem_append_right _ hother)
    have hbehind := hrest.head? hinert hlater hapart
    obtain ⟨gap, hnonempty, rfl, hgap⟩ :=
      exists_gap_of_append_eq (hinert.names rule hrule) hbehind hfirst hresult
    rw [lastOr_append, lastOr_of_ne_nil hnonempty _ (lastOr before rule.name)] at hfront
    obtain ⟨ahead, behind, rfl, hahead, hother⟩ := ih hlater hgap hfront
    refine ⟨rule.name ++ ahead, behind, by rw [List.append_assoc], ?_, hother⟩
    rw [lastOr_append]
    exact hahead

/-- A name that stands in a substituted text stands in the text. -/
theorem standsIn_of_standsIn_replaceFrom (hinert : Inert rules)
    (hnonempty : ∀ rule ∈ rules, rule.name ≠ [])
    (hascii : ∀ character ∈ text, character.toNat < 128) {name : List Char}
    (hfirst : name.head?.any isPlainStart = true) (hname : name.all isPlainCharacter = true)
    (hstands : StandsIn name (replaceFrom rules none 0 text)) : StandsIn name text := by
  obtain ⟨front, back, hresult, hfront, hback⟩ := hstands
  have hreplaces := replaces_replaceFrom hnonempty none text
  rw [← Option.or_none (o := front.getLast?)] at hfront
  obtain ⟨ahead, behind, htext, hahead, hbehind⟩ :=
    hreplaces.exists_of_name hinert hascii hfirst hname hresult hfront hback
  rw [lastOr, Option.or_none] at hahead
  exact ⟨ahead, behind, htext, hahead, hbehind⟩

end Formulary.Name
