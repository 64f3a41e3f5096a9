import Formulary.Name.Candidate
import Formulary.Name.Tier
import Formulary.Proofs.Name.PlainName
import Mathlib.Data.List.DropRight

/-!
# Formula text cut into candidate runs

A formula falls into candidate runs and the characters between them, `pieces`. The cut is described
by `Dissects`: a run is clean, starts with a letter or an underscore, ends with a plain character
and goes on as far as it can, `EndsRun`. The pieces make up the text, `characters_of_dissects`, and
the runs among them are those that the search for candidates finds, `runs_eq_of_dissects`.
-/

set_option autoImplicit false
set_option relaxedAutoImplicit false

namespace Formulary.Name

open Formulary.Text

/-! ### Runs -/

/-- Whether a text is one candidate run: words of plain characters with white space between them, of
which the first does not start with a digit. -/
def isRun (text : List Char) : Bool :=
  text.head?.any isPlainStart && text.getLast?.any isPlainCharacter && text.all isClean

/-- A run that stands before a text cannot go on in it: there is no plain character behind the white
space at its front. -/
def EndsRun (rest : List Char) : Prop :=
  (trimStart rest).head?.any isPlainCharacter = false

variable {text word rest : List Char} {character : Char}

theorem isRun_iff : isRun text = true ↔
    text.head?.any isPlainStart = true ∧ text.getLast?.any isPlainCharacter = true ∧
      ∀ character ∈ text, isClean character = true := by
  rw [isRun, Bool.and_eq_true, Bool.and_eq_true, List.all_eq_true, and_assoc]

theorem hasPlainEdges_of_isRun (hrun : isRun text = true) : hasPlainEdges text = true := by
  obtain ⟨hfirst, hlast, _⟩ := isRun_iff.mp hrun
  rw [hasPlainEdges, Bool.and_eq_true]
  refine ⟨?_, hlast⟩
  cases hhead : text.head? with
  | none => simp [hhead] at hfirst
  | some character =>
    rw [hhead] at hfirst
    exact isPlainCharacter_of_isPlainStart hfirst

theorem isRun_of_isIdentifier (hname : isIdentifier text = true) : isRun text = true := by
  have hedges := hasPlainEdges_of_isIdentifier hname
  rw [hasPlainEdges, Bool.and_eq_true] at hedges
  rw [isIdentifier, Bool.and_eq_true, List.all_eq_true] at hname
  refine isRun_iff.mpr ⟨hname.1, hedges.2, fun character hcharacter ↦ ?_⟩
  rw [isClean, hname.2 character hcharacter, Bool.true_or]

theorem isWhiteSpace_of_isPlainCharacter (hplain : isPlainCharacter character = true) :
    isWhiteSpace character = false :=
  isWhiteSpace_of_isNameCharacter (classes_of_isPlainCharacter hplain).1

theorem isPlainCharacter_of_isWhiteSpace (hwhite : isWhiteSpace character = true) :
    isPlainCharacter character = false := by
  refine Bool.eq_false_iff.mpr fun hplain ↦ ?_
  exact Bool.false_ne_true ((isWhiteSpace_of_isPlainCharacter hplain).symm.trans hwhite)

theorem isPlainStart_of_not_plain (hplain : isPlainCharacter character = false) :
    isPlainStart character = false := by
  rw [isPlainCharacter, Bool.or_eq_false_iff] at hplain
  exact hplain.1

/-! ### Where runs end -/

theorem endsRun_nil : EndsRun [] := rfl

theorem endsRun_cons_of_white (hwhite : isWhiteSpace character = true) :
    EndsRun (character :: rest) ↔ EndsRun rest := by
  rw [EndsRun, EndsRun, trimStart, trimStart, List.dropWhile_cons, if_pos hwhite]

theorem endsRun_cons_of_not_white (hwhite : isWhiteSpace character = false) :
    EndsRun (character :: rest) ↔ isPlainCharacter character = false := by
  rw [EndsRun, trimStart, List.dropWhile_cons, if_neg (Bool.eq_false_iff.mp hwhite)]
  rfl

theorem endsRun_append_of_white (hwhite : word.all isWhiteSpace = true) :
    EndsRun (word ++ rest) ↔ EndsRun rest := by
  induction word with
  | nil => rfl
  | cons character word ih =>
    rw [List.all_cons, Bool.and_eq_true] at hwhite
    rw [List.cons_append, endsRun_cons_of_white hwhite.1, ih hwhite.2]

/-- No plain character stands where a run ends. -/
theorem EndsRun.head? (hends : EndsRun rest) : rest.head?.any isPlainCharacter = false := by
  cases rest with
  | nil => rfl
  | cons character rest =>
    show isPlainCharacter character = false
    cases hwhite : isWhiteSpace character with
    | true => exact isPlainCharacter_of_isWhiteSpace hwhite
    | false => exact (endsRun_cons_of_not_white hwhite).mp hends

/-- No run ends before clean characters of which the last is plain. -/
theorem not_endsRun_of_clean (hclean : ∀ character ∈ word, isClean character = true)
    (hlast : word.getLast?.any isPlainCharacter = true) : ¬EndsRun (word ++ rest) := by
  intro hends
  induction word with
  | nil => cases hlast
  | cons first others ih =>
    have hfirst := hclean first List.mem_cons_self
    cases hwhite : isWhiteSpace first with
    | false =>
      rw [isClean, (endsRun_cons_of_not_white hwhite).mp hends, hwhite] at hfirst
      exact Bool.false_ne_true hfirst
    | true =>
      cases others with
      | nil =>
        have hplain : isPlainCharacter first = true := hlast
        exact Bool.false_ne_true ((isPlainCharacter_of_isWhiteSpace hwhite).symm.trans hplain)
      | cons second others =>
        rw [List.getLast?_cons_cons] at hlast
        exact ih (fun other hother ↦ hclean other (List.mem_cons_of_mem first hother)) hlast
          ((endsRun_cons_of_white hwhite).mp hends)

/-- A clean beginning that ends with a plain character does not reach beyond the end of a run. -/
theorem prefix_of_endsRun {name : List Char} (hclean : ∀ character ∈ name, isClean character = true)
    (hlast : name.getLast?.any isPlainCharacter = true) (hends : EndsRun rest)
    (hbegins : name <+: word ++ rest) : name <+: word := by
  rcases Nat.le_total name.length word.length with hshorter | hlonger
  · exact List.prefix_of_prefix_length_le hbegins (List.prefix_append word rest) hshorter
  · obtain ⟨excess, rfl⟩ := List.prefix_of_prefix_length_le (List.prefix_append word rest) hbegins
      hlonger
    obtain ⟨behind, rfl⟩ := (List.prefix_append_right_inj word).mp hbegins
    by_cases hexcess : excess = []
    · simp [hexcess]
    · rw [List.getLast?_append_of_ne_nil word hexcess] at hlast
      exact absurd hends (not_endsRun_of_clean
        (fun character hcharacter ↦ hclean character (List.mem_append_right word hcharacter)) hlast)

/-! ### Pieces -/

/-- A piece of a formula: a character outside of all runs, or a run. -/
inductive Piece where
  | other (character : Char)
  | run (word : List Char)
  deriving Repr, DecidableEq

/-- The characters of a piece. -/
def Piece.characters : Piece → List Char
  | .other character => [character]
  | .run word => word

/-- The run that a piece is. -/
def Piece.run? : Piece → Option (List Char)
  | .other _ => none
  | .run word => some word

/-- The clean characters at the front of a text without the white space behind the last of them. -/
def frontRun (text : List Char) : List Char :=
  trimEnd (text.takeWhile isClean)

/-- The pieces of a text behind the first `skipped` characters, which belong to a run already. -/
def piecesFrom : Nat → List Char → List Piece
  | _, [] => []
  | skipped + 1, _ :: rest => piecesFrom skipped rest
  | 0, character :: rest =>
    if isPlainStart character then
      let word := frontRun (character :: rest)
      .run word :: piecesFrom (word.length - 1) rest
    else .other character :: piecesFrom 0 rest

/-- The pieces of a text, from left to right. -/
def pieces (text : List Char) : List Piece :=
  piecesFrom 0 text

/-- Pieces into which a text falls: characters that start no run, and runs that go on as far as they
can. -/
inductive Dissects : List Piece → List Char → Prop
  | nil : Dissects [] []
  | other {character : Char} {others : List Piece} {rest : List Char} :
    isPlainStart character = false → Dissects others rest →
    Dissects (.other character :: others) (character :: rest)
  | run {word : List Char} {others : List Piece} {rest : List Char} :
    isRun word = true → EndsRun rest → Dissects others rest →
    Dissects (.run word :: others) (word ++ rest)

variable {cut : List Piece}

/-- The pieces of a text make it up. -/
theorem characters_of_dissects (hcut : Dissects cut text) :
    cut.flatMap Piece.characters = text := by
  induction hcut with
  | nil => rfl
  | other _ _ ih => rw [List.flatMap_cons, ih]; rfl
  | run _ _ _ ih => rw [List.flatMap_cons, ih]; rfl

theorem Dissects.isRun (hcut : Dissects cut text) (hword : .run word ∈ cut) :
    isRun word = true := by
  induction hcut with
  | nil => cases hword
  | other _ _ ih => exact ih (by simpa using hword)
  | run hrun _ _ ih =>
    rcases List.mem_cons.mp hword with hhere | hlater
    · rwa [Piece.run.inj hhere]
    · exact ih hlater

/-- The white space behind the front run makes up the rest of the clean characters. -/
theorem frontRun_append (text : List Char) :
    frontRun text ++ (text.takeWhile isClean).rtakeWhile isWhiteSpace = text.takeWhile isClean :=
  List.rdropWhile_append_rtakeWhile

/-- What is taken off the front of a text goes on as far as it can. -/
theorem exists_rest_of_frontRun (text : List Char) :
    ∃ rest, text = frontRun text ++ rest ∧ EndsRun rest := by
  refine ⟨(text.takeWhile isClean).rtakeWhile isWhiteSpace ++ text.dropWhile isClean, ?_, ?_⟩
  · rw [← List.append_assoc, frontRun_append, List.takeWhile_append_dropWhile]
  · have hwhite := List.all_eq_true.mpr fun character (hcharacter : character ∈
        (text.takeWhile isClean).rtakeWhile isWhiteSpace) ↦ List.mem_rtakeWhile_imp hcharacter
    rw [endsRun_append_of_white hwhite]
    have hbehind := head?_dropWhile_any isClean text
    cases hdrop : text.dropWhile isClean with
    | nil => exact endsRun_nil
    | cons character rest =>
      rw [hdrop] at hbehind
      have hother : isClean character = false := hbehind
      rw [isClean, Bool.or_eq_false_iff] at hother
      exact (endsRun_cons_of_not_white hother.2).mpr hother.1

/-- What is taken off the front of a text that starts a run is a run. -/
theorem isRun_frontRun (hfirst : text.head?.any isPlainStart = true) :
    isRun (frontRun text) = true := by
  cases text with
  | nil => cases hfirst
  | cons first others =>
    have hplain : isPlainCharacter first = true := isPlainCharacter_of_isPlainStart hfirst
    have hbegins : frontRun (first :: others) <+: (first :: others).takeWhile isClean :=
      ⟨_, frontRun_append _⟩
    have hclean : ∀ character ∈ frontRun (first :: others), isClean character = true :=
      fun _ hcharacter ↦ List.mem_takeWhile_imp (hbegins.subset hcharacter)
    have hsome : frontRun (first :: others) ≠ [] := by
      intro hnone
      have hfront : first ∈ (first :: others).takeWhile isClean := by
        rw [List.takeWhile_cons, isClean, hplain]
        exact List.mem_cons_self
      have hblank := List.rdropWhile_eq_nil_iff.mp hnone first hfront
      exact Bool.false_ne_true ((isWhiteSpace_of_isPlainCharacter hplain).symm.trans hblank)
    refine isRun_iff.mpr ⟨?_, ?_, hclean⟩
    · obtain ⟨behind, hbehind⟩ := hbegins.trans (List.takeWhile_prefix isClean)
      obtain ⟨head, tail, hcons⟩ := List.exists_cons_of_ne_nil hsome
      rw [hcons] at hbehind ⊢
      obtain rfl := (List.cons.inj hbehind).1
      exact hfirst
    · have hlast := List.rdropWhile_last_not isWhiteSpace _ hsome
      have hmember := hclean _ (List.getLast_mem hsome)
      rw [isClean, Bool.or_eq_true] at hmember
      rw [List.getLast?_eq_some_getLast hsome]
      exact hmember.resolve_right hlast

theorem piecesFrom_skip (word rest : List Char) :
    piecesFrom word.length (word ++ rest) = piecesFrom 0 rest := by
  induction word with
  | nil => rfl
  | cons character word ih => rw [List.cons_append, List.length_cons, piecesFrom, ih]

/-- A text falls into its pieces. -/
theorem dissects_pieces (text : List Char) : Dissects (pieces text) text := by
  induction hlength : text.length using Nat.strongRecOn generalizing text with
  | _ length ih =>
    subst hlength
    cases text with
    | nil => exact .nil
    | cons character rest =>
      rw [pieces, piecesFrom]
      split
      · rename_i hstart
        have hfirst : (character :: rest).head?.any isPlainStart = true := hstart
        have hrun := isRun_frontRun hfirst
        obtain ⟨behind, hsplit, hends⟩ := exists_rest_of_frontRun (character :: rest)
        obtain ⟨head, word, hword⟩ :=
          List.exists_cons_of_ne_nil (ne_nil_of_hasPlainEdges (hasPlainEdges_of_isRun hrun))
        have hrest : rest = word ++ behind := by
          rw [hword] at hsplit
          exact (List.cons.inj hsplit).2
        have hpieces : piecesFrom ((frontRun (character :: rest)).length - 1) rest =
            pieces behind := by
          rw [hword, List.length_cons, Nat.add_sub_cancel, hrest, piecesFrom_skip, pieces]
        have hshorter : behind.length < (character :: rest).length := by
          rw [hrest, List.length_cons, List.length_append]
          omega
        have hcut := Dissects.run hrun hends (ih behind.length hshorter behind rfl)
        rw [← hpieces, ← hsplit] at hcut
        exact hcut
      · rename_i hstart
        exact .other (Bool.eq_false_iff.mpr hstart) (ih rest.length (by simp) rest rfl)

/-! ### Pieces of texts that are put together -/

theorem EndsRun.append {back : List Char} (hends : EndsRun rest) (hback : EndsRun back) :
    EndsRun (rest ++ back) := by
  induction rest with
  | nil => exact hback
  | cons character rest ih =>
    cases hwhite : isWhiteSpace character with
    | true =>
      exact (endsRun_cons_of_white hwhite).mpr (ih ((endsRun_cons_of_white hwhite).mp hends))
    | false =>
      exact (endsRun_cons_of_not_white hwhite).mpr ((endsRun_cons_of_not_white hwhite).mp hends)

/-- A run in front of a text in which it cannot go on is taken off its front. -/
theorem frontRun_append_of_isRun (hrun : isRun word = true) (hends : EndsRun rest) :
    frontRun (word ++ rest) = word := by
  obtain ⟨hfirst, hlast, hclean⟩ := isRun_iff.mp hrun
  have hhead : (word ++ rest).head?.any isPlainStart = true := by
    cases word with
    | nil => cases hfirst
    | cons first word => exact hfirst
  obtain ⟨-, hedge, hinside⟩ := isRun_iff.mp (isRun_frontRun hhead)
  obtain ⟨behind, hsplit, hbehind⟩ := exists_rest_of_frontRun (word ++ rest)
  have hshorter : frontRun (word ++ rest) <+: word :=
    prefix_of_endsRun hinside hedge hends ⟨behind, hsplit.symm⟩
  have hlonger : word <+: frontRun (word ++ rest) :=
    prefix_of_endsRun hclean hlast hbehind ⟨rest, hsplit⟩
  exact hshorter.eq_of_length_le hlonger.length_le

/-- There is one way only to cut a text. -/
theorem Dissects.eq_pieces (hcut : Dissects cut text) : cut = pieces text := by
  induction hcut with
  | nil => rfl
  | other hstart _ ih =>
    rw [pieces, piecesFrom, if_neg (Bool.eq_false_iff.mp hstart), ih, pieces]
  | @run word others rest hrun hends _ ih =>
    obtain ⟨first, letters, rfl⟩ :=
      List.exists_cons_of_ne_nil (ne_nil_of_hasPlainEdges (hasPlainEdges_of_isRun hrun))
    have hstart : isPlainStart first = true := (isRun_iff.mp hrun).1
    have hfront := frontRun_append_of_isRun hrun hends
    rw [List.cons_append] at hfront
    rw [pieces, List.cons_append, piecesFrom, if_pos hstart, hfront]
    show _ = Piece.run (first :: letters) :: piecesFrom letters.length (letters ++ rest)
    rw [piecesFrom_skip, ih, pieces]

theorem Dissects.append {others : List Piece} {front back : List Char}
    (hfront : Dissects cut front) (hends : EndsRun back) (hback : Dissects others back) :
    Dissects (cut ++ others) (front ++ back) := by
  induction hfront with
  | nil => exact hback
  | other hstart _ ih => exact .other hstart ih
  | run hrun hinside _ ih =>
    rw [List.append_assoc]
    exact .run hrun (hinside.append hends) ih

/-- Texts between which no run goes on are cut each on its own. -/
theorem pieces_append {front back : List Char} (hends : EndsRun back) :
    pieces (front ++ back) = pieces front ++ pieces back :=
  ((dissects_pieces front).append hends (dissects_pieces back)).eq_pieces.symm

theorem pieces_cons_of_not_start (hstart : isPlainStart character = false) :
    pieces (character :: rest) = .other character :: pieces rest :=
  (Dissects.other hstart (dissects_pieces rest)).eq_pieces.symm

/-- A run is one piece. -/
theorem pieces_of_isRun (hrun : isRun word = true) : pieces word = [.run word] := by
  have hcut := Dissects.run hrun endsRun_nil .nil
  rw [List.append_nil] at hcut
  exact hcut.eq_pieces.symm

/-! ### The search for runs -/

/-- Reading clean characters of which the last is plain leaves a run behind without a gap. -/
theorem runsFrom_append_of_clean {run gap : List Char} (hopen : run ≠ [])
    (hclean : ∀ character ∈ word, isClean character = true)
    (hlast : word.getLast?.any isPlainCharacter = true) (rest : List Char) :
    runsFrom ⟨run, gap⟩ (word ++ rest) = runsFrom ⟨word.reverse ++ (gap ++ run), []⟩ rest := by
  have hrun : ¬run.isEmpty = true := by simpa using hopen
  induction word generalizing run gap with
  | nil => cases hlast
  | cons character word ih =>
    have hcharacter := hclean character List.mem_cons_self
    have hlater := fun other hother ↦ hclean other (List.mem_cons_of_mem character hother)
    rw [List.cons_append, runsFrom, if_neg hrun]
    cases word with
    | nil =>
      have hplain : isPlainCharacter character = true := hlast
      rw [if_pos hplain]
      rfl
    | cons second others =>
      rw [List.getLast?_cons_cons] at hlast
      split
      · rw [ih (List.cons_ne_nil _ _) hlater hlast (by simp)]
        simp
      · rename_i hplain
        rw [isClean, Bool.or_eq_true] at hcharacter
        rw [if_pos (hcharacter.resolve_left hplain), ih hopen hlater hlast hrun]
        simp

/-- Where a run ends, the search puts it out and goes on. -/
theorem runsFrom_of_endsRun {run gap : List Char} (hopen : run ≠ []) (hends : EndsRun rest) :
    runsFrom ⟨run, gap⟩ rest = run.reverse :: runs rest := by
  have hrun : ¬run.isEmpty = true := by simpa using hopen
  induction rest generalizing gap with
  | nil => simp [runsFrom, runs, RunState.outside, hopen]
  | cons character rest ih =>
    have hplain : isPlainCharacter character = false := hends.head?
    have hstart := isPlainStart_of_not_plain hplain
    have hskip : runs (character :: rest) = runs rest := by
      simp [runs, runsFrom, RunState.outside, hstart]
    rw [runsFrom, if_neg hrun, if_neg (Bool.eq_false_iff.mp hplain), hskip]
    split
    · rename_i hwhite
      exact ih ((endsRun_cons_of_white hwhite).mp hends)
    · rfl

/-- The search finds the runs among the pieces of a text. -/
theorem runs_eq_of_dissects (hcut : Dissects cut text) : runs text = cut.filterMap Piece.run? := by
  induction hcut with
  | nil => rfl
  | @other character others rest hstart _ ih =>
    rw [List.filterMap_cons, Piece.run?, ← ih]
    simp [runs, runsFrom, RunState.outside, hstart]
  | @run word others rest hrun hends _ ih =>
    obtain ⟨hfirst, hlast, hclean⟩ := isRun_iff.mp hrun
    rw [List.filterMap_cons, Piece.run?, ← ih]
    cases word with
    | nil => cases hfirst
    | cons first word =>
      have hopen : runs (first :: word ++ rest) = runsFrom ⟨[first], []⟩ (word ++ rest) := by
        have hstart : isPlainStart first = true := hfirst
        simp [runs, runsFrom, RunState.outside, hstart]
      rw [hopen]
      cases word with
      | nil => exact runsFrom_of_endsRun (by simp) hends
      | cons second word =>
        rw [List.getLast?_cons_cons] at hlast
        rw [runsFrom_append_of_clean (by simp)
          (fun other hother ↦ hclean other (List.mem_cons_of_mem first hother)) hlast,
          runsFrom_of_endsRun (by simp) hends]
        simp

theorem mem_runs_of_mem_pieces (hword : .run word ∈ pieces text) : word ∈ runs text := by
  rw [runs_eq_of_dissects (dissects_pieces text)]
  exact List.mem_filterMap.mpr ⟨_, hword, rfl⟩

/-- The runs of a text are runs. -/
theorem isRun_of_mem_runs (hword : word ∈ runs text) : isRun word = true := by
  rw [runs_eq_of_dissects (dissects_pieces text), List.mem_filterMap] at hword
  obtain ⟨piece, hpiece, hrun⟩ := hword
  cases piece with
  | other character => cases hrun
  | run found =>
    obtain rfl := Option.some.inj hrun
    exact (dissects_pieces text).isRun hpiece

/-! ### White space at the ends -/

theorem runs_trimStart (text : List Char) : runs (trimStart text) = runs text := by
  induction text with
  | nil => rfl
  | cons character text ih =>
    rw [trimStart, List.dropWhile_cons]
    split
    · rename_i hwhite
      have hstart := isPlainStart_of_not_plain (isPlainCharacter_of_isWhiteSpace hwhite)
      rw [← trimStart, ih]
      simp [runs, runsFrom, RunState.outside, hstart]
    · rfl

theorem runsFrom_append_of_white {state : RunState} {white : List Char}
    (hwhite : ∀ character ∈ white, isWhiteSpace character = true) :
    runsFrom state (text ++ white) = runsFrom state text := by
  induction text generalizing state with
  | nil =>
    induction white generalizing state with
    | nil => rfl
    | cons character white ih =>
      have hlater := fun other hother ↦ hwhite other (List.mem_cons_of_mem character hother)
      have hhere := hwhite character List.mem_cons_self
      have hplain := isPlainCharacter_of_isWhiteSpace hhere
      have hstart := isPlainStart_of_not_plain hplain
      simp only [List.nil_append] at ih ⊢
      obtain ⟨run, gap⟩ := state
      cases run with
      | nil => simp [runsFrom, hstart, ih hlater, RunState.outside]
      | cons first others => simp [runsFrom, hplain, hhere, ih hlater]
  | cons character text ih =>
    rw [List.cons_append, runsFrom, runsFrom]
    simp only [ih]

/-- White space at the ends of a text holds no runs. -/
theorem runs_trim (text : List Char) : runs (trim text) = runs text := by
  have hsplit : trimEnd (trimStart text) ++ (trimStart text).rtakeWhile isWhiteSpace =
      trimStart text := List.rdropWhile_append_rtakeWhile
  have hwhite : ∀ character ∈ (trimStart text).rtakeWhile isWhiteSpace,
      isWhiteSpace character = true := fun _ ↦ List.mem_rtakeWhile_imp
  rw [← runs_trimStart text, ← hsplit]
  exact (runsFrom_append_of_white hwhite).symm

end Formulary.Name
