import ComponentPipeline.Proofs.Css.Legible
import ComponentPipeline.Proofs.Css.VisitedRules
import ComponentPipeline.Proofs.Selector.MarkerPlaces

/-!
# Comments in statements

A statement passes over a comment as a whole wherever neither a string nor an escape
goes on.  The selector of a parsed rule is therefore a row of characters and comments,
each of which comes to its end inside the selector.
-/

namespace ComponentPipeline
namespace Css

open Selector (Quoting)

/-- A comment with its delimiters. -/
def commented (body : Text) : Text :=
  '/' :: '*' :: (body ++ ['*', '/'])

/-- A text that stands in a comment: the comment does not end before it does. -/
def IsCommentBody (body : Text) : Prop :=
  Text.cutAt? ['*', '/'] (body ++ ['*', '/']) = some (body, [])

instance (body : Text) : Decidable (IsCommentBody body) :=
  inferInstanceAs (Decidable (_ = _))

/-- The comments of a text, and the text with every comment emptied.  A comment starts
where no string is open and nothing is escaped. -/
inductive Comments : Quoting → Text → List Text → Text → Prop
  | nil {quoting} : Comments quoting [] [] []
  | char {quoting char rest bodies emptied}
      (opensNone : quoting = .outside → ¬OpensComment (char :: rest))
      (others : Comments (quoting.step char) rest bodies emptied) :
      Comments quoting (char :: rest) bodies (char :: emptied)
  | comment {body rest bodies emptied}
      (isBody : IsCommentBody body)
      (others : Comments .outside rest bodies emptied) :
      Comments .outside (commented body ++ rest) (body :: bodies) (commented [] ++ emptied)

namespace Comments

variable {quoting : Quoting} {text emptied : Text} {bodies : List Text}

/-- Up to the slash of the first comment, emptying the comments changes nothing. -/
theorem eq_or_exists_slash (comments : Comments quoting text bodies emptied) :
    text = emptied ∨
      ∃ before inside inside', text = before ++ '/' :: inside ∧
        emptied = before ++ '/' :: inside' := by
  induction comments with
  | nil => exact .inl rfl
  | @char quoting char rest bodies emptied opensNone others ih =>
      obtain rfl | ⟨before, inside, inside', rfl, rfl⟩ := ih
      · exact .inl rfl
      · exact .inr ⟨char :: before, inside, inside', rfl, rfl⟩
  | comment isBody others ih => exact .inr ⟨[], _, _, rfl, rfl⟩

/-- A text that does not open a comment starts with a character outside comments. -/
theorem of_cons
    {char : Char}
    {rest : Text}
    (opensNone : quoting = .outside → ¬OpensComment (char :: rest))
    (comments : Comments quoting (char :: rest) bodies emptied) :
    ∃ others, emptied = char :: others ∧ Comments (quoting.step char) rest bodies others := by
  generalize isText : char :: rest = text at comments
  cases comments with
  | nil => cases isText
  | char _ others =>
      cases isText
      exact ⟨_, rfl, others⟩
  | comment isBody others =>
      rw [isText] at opensNone
      exact absurd ⟨_, rfl⟩ (opensNone rfl)

/-- What follows a comment is again a row of characters and comments. -/
theorem of_commented
    {body rest : Text}
    (isBody : IsCommentBody body)
    (comments : Comments .outside (commented body ++ rest) bodies emptied) :
    ∃ bodies' emptied', bodies = body :: bodies' ∧ emptied = commented [] ++ emptied' ∧
      Comments .outside rest bodies' emptied' := by
  generalize isText : commented body ++ rest = text at comments
  generalize isOutside : Quoting.outside = quoting at comments
  cases comments with
  | nil => cases isText
  | char opensNone others =>
      rw [← isText] at opensNone
      exact absurd ⟨_, rfl⟩ (opensNone isOutside.symm)
  | @comment body' rest' bodies' emptied' isBody' others =>
      have inside : body ++ ['*', '/'] ++ rest = body' ++ ['*', '/'] ++ rest' :=
        (List.cons.inj (List.cons.inj isText).2).2
      have cut : Text.cutAt? ['*', '/'] (body ++ ['*', '/'] ++ rest) = some (body, rest) :=
        Text.cutAt?_append_iff.mpr isBody
      rw [inside] at cut
      cases cut.symm.trans (Text.cutAt?_append_iff.mpr isBody')
      exact ⟨_, _, rfl, rfl, others⟩

/-- The comments of a text are known. -/
theorem unique
    {bodies' : List Text}
    {emptied' : Text}
    (comments : Comments quoting text bodies emptied)
    (others : Comments quoting text bodies' emptied') :
    bodies' = bodies ∧ emptied' = emptied := by
  induction comments generalizing bodies' emptied' with
  | nil =>
      cases others
      exact ⟨rfl, rfl⟩
  | char opensNone _ ih =>
      obtain ⟨behind, rfl, further⟩ := others.of_cons opensNone
      obtain ⟨rfl, rfl⟩ := ih further
      exact ⟨rfl, rfl⟩
  | comment isBody _ ih =>
      obtain ⟨later, behind, rfl, rfl, further⟩ := others.of_commented isBody
      obtain ⟨rfl, rfl⟩ := ih further
      exact ⟨rfl, rfl⟩

theorem isCommentBody_of_mem
    (comments : Comments quoting text bodies emptied) :
    ∀ body ∈ bodies, IsCommentBody body := by
  induction comments with
  | nil => simp
  | char _ _ ih => exact ih
  | comment isBody _ ih => exact List.forall_mem_cons.mpr ⟨isBody, ih⟩

end Comments

/-! ## The end of a comment -/

namespace StatementScan

/-- The next character is inside a comment. -/
def IsInComment (scan : StatementScan) : Prop :=
  ∃ start, scan.surrounding = .comment start ∨ scan.surrounding = .commentAfterStar start

section Comment

variable {scan final : StatementScan} {start depth : Nat} {text : Text}

/-- Behind a star, only a slash makes a difference. -/
theorem over?_commentAfterStar
    (noSlash : text.head? ≠ some '/')
    (notEmpty : text ≠ []) :
    (⟨.commentAfterStar start, depth⟩ : StatementScan).over? text =
      (⟨.comment start, depth⟩ : StatementScan).over? text := by
  obtain ⟨char, rest, rfl⟩ := List.exists_cons_of_ne_nil notEmpty
  have isNoSlash : char ≠ '/' := fun slash => noSlash (congrArg some slash)
  have sameStep : (⟨.commentAfterStar start, depth⟩ : StatementScan).step 0 char =
      (⟨.comment start, depth⟩ : StatementScan).step 0 char := by
    simp only [step, if_neg isNoSlash]
  rw [over?_cons, over?_cons, sameStep]
  rfl

/-- A scan comes out of a comment where the comment ends, or it stays in it. -/
theorem over?_comment (start depth : Nat) (text : Text) :
    (∃ body rest, Text.cutAt? ['*', '/'] text = some (body, rest) ∧
        (⟨.comment start, depth⟩ : StatementScan).over? text =
          (⟨.plain, depth⟩ : StatementScan).over? rest) ∨
      Text.cutAt? ['*', '/'] text = none ∧
        ∃ final, (⟨.comment start, depth⟩ : StatementScan).over? text = some final ∧
          final.IsInComment := by
  induction text with
  | nil => exact .inr ⟨rfl, _, rfl, start, .inl rfl⟩
  | cons char rest ih =>
      by_cases ends : ['*', '/'] <+: char :: rest
      · obtain ⟨behind, parts⟩ := ends
        rw [← parts]
        exact .inl ⟨[], behind, Text.cutAt?_pattern_append _ behind, rfl⟩
      · have further : Text.cutAt? ['*', '/'] (char :: rest) =
            (Text.cutAt? ['*', '/'] rest).map fun parts => (char :: parts.1, parts.2) := by
          rw [Text.cutAt?, Text.after?_eq_none_iff.mpr ends]
        have same : (⟨.comment start, depth⟩ : StatementScan).over? (char :: rest) =
              (⟨.comment start, depth⟩ : StatementScan).over? rest ∨
            char = '*' ∧ rest = [] := by
          by_cases star : char = '*'
          · subst star
            by_cases isEmpty : rest = []
            · exact .inr ⟨rfl, isEmpty⟩
            · refine .inl (over?_commentAfterStar (fun slash => ends ?_) isEmpty)
              obtain ⟨behind, rfl⟩ := List.head?_eq_some_iff.mp slash
              exact ⟨behind, rfl⟩
          · left
            have stays : (⟨.comment start, depth⟩ : StatementScan).step 0 char =
                ⟨.comment start, depth⟩ := if_neg star
            rw [over?_cons, stays]
            rfl
        obtain same | ⟨rfl, rfl⟩ := same
        · rw [same, further]
          obtain ⟨body, behind, cut, scanned⟩ | ⟨none, staysIn⟩ := ih
          · exact .inl ⟨char :: body, behind, by rw [cut]; rfl, scanned⟩
          · exact .inr ⟨by rw [none]; rfl, staysIn⟩
        · exact .inr ⟨rfl, _, rfl, start, .inr rfl⟩

/-- What opens a comment does not end the statement. -/
theorem over?_openComment (depth : Nat) (text : Text) :
    (⟨.plain, depth⟩ : StatementScan).over? ('/' :: '*' :: text) =
      (⟨.comment 0, depth⟩ : StatementScan).over? text := by
  simp [over?_cons, endsAt, step, plainStep]

/-- A scan passes over a comment. -/
theorem over?_commented
    {body : Text}
    (isBody : IsCommentBody body) :
    (⟨.plain, depth⟩ : StatementScan).over? (commented body) = some ⟨.plain, depth⟩ := by
  rw [commented, over?_openComment]
  obtain ⟨before, rest, cut, scanned⟩ | ⟨none, -⟩ := over?_comment 0 depth (body ++ ['*', '/'])
  · cases isBody.symm.trans cut
    exact scanned
  · cases isBody.symm.trans none

theorem IsInComment.step_of_isBlank
    (inComment : scan.IsInComment)
    {char : Char}
    (blank : Text.isBlank char = true) :
    (scan.step 0 char).IsInComment := by
  have noSlash : char ≠ '/' := by
    rintro rfl
    cases blank
  have noStar : char ≠ '*' := by
    rintro rfl
    cases blank
  obtain ⟨surrounding, depth⟩ := scan
  obtain ⟨start, rfl | rfl⟩ := inComment
  · exact ⟨start, .inl (by simp only [step, if_neg noStar])⟩
  · exact ⟨start, .inl (by simp only [step, if_neg noSlash, if_neg noStar])⟩

/-- Blanks do not end a comment. -/
theorem IsInComment.over_of_isBlankText
    (inComment : scan.IsInComment)
    (blank : Text.isBlankText text = true)
    (scanned : scan.over? text = some final) :
    final.IsInComment := by
  induction text generalizing scan with
  | nil =>
      cases scanned
      exact inComment
  | cons char rest ih =>
      obtain ⟨blankHere, blankRest⟩ := Bool.and_eq_true_iff.mp blank
      rw [over?_cons] at scanned
      split at scanned
      · cases scanned
      · exact ih (inComment.step_of_isBlank blankHere) blankRest scanned

theorem IsInComment.endsAt_eq_false (inComment : scan.IsInComment) (char : Char) :
    scan.endsAt char = false := by
  obtain ⟨surrounding, depth⟩ := scan
  obtain ⟨start, rfl | rfl⟩ := inComment <;> rfl

end Comment

/-! ## The comments of a statement -/

/-- What surrounds a character outside comments, by the string that is open and whether
the character is escaped. -/
def surroundingOf : Quoting → Surrounding
  | ⟨none, false⟩ => .plain
  | ⟨none, true⟩ => .afterBackslash
  | ⟨some quote, false⟩ => .string quote 0
  | ⟨some quote, true⟩ => .stringAfterBackslash quote 0

/-- A character that opens no comment is passed over as in a selector. -/
theorem exists_step_surroundingOf
    {quoting : Quoting}
    {char : Char}
    (noSlash : quoting = .outside → char ≠ '/')
    (depth : Nat) :
    ∃ depth', (⟨surroundingOf quoting, depth⟩ : StatementScan).step 0 char =
      ⟨surroundingOf (quoting.step char), depth'⟩ := by
  obtain ⟨quote, escaped⟩ := quoting
  cases escaped with
  | true => cases quote <;> exact ⟨depth, rfl⟩
  | false =>
      by_cases backslash : char = '\\'
      · subst backslash
        cases quote <;> exact ⟨depth, rfl⟩
      · cases quote with
        | some quote =>
            by_cases closes : char = quote
            · refine ⟨depth, ?_⟩
              simp only [surroundingOf, step, Quoting.step, if_neg backslash, if_pos closes]
              rfl
            · refine ⟨depth, ?_⟩
              simp only [surroundingOf, step, Quoting.step, if_neg backslash, if_neg closes]
              rfl
        | none =>
            have noSlashHere := noSlash rfl
            by_cases opens : char = '"' ∨ char = '\''
            · refine ⟨depth, ?_⟩
              simp only [surroundingOf, step, plainStep, Quoting.step, if_neg backslash,
                if_pos opens]
              rfl
            · simp only [surroundingOf, step, plainStep, Quoting.step, if_neg backslash,
                if_neg opens, if_neg noSlashHere, Bool.false_eq_true, if_false]
              split
              · exact ⟨_, rfl⟩
              · split <;> exact ⟨_, rfl⟩

/-- Behind a slash that opens no comment, a scan is where it was. -/
theorem over?_afterSlash
    {start depth : Nat}
    {text : Text}
    (noStar : text.head? ≠ some '*')
    (notEmpty : text ≠ []) :
    (⟨.afterSlash start, depth⟩ : StatementScan).over? text =
      (⟨.plain, depth⟩ : StatementScan).over? text := by
  obtain ⟨char, rest, rfl⟩ := List.exists_cons_of_ne_nil notEmpty
  have isNoStar : char ≠ '*' := fun star => noStar (congrArg some star)
  have sameStep : (⟨.afterSlash start, depth⟩ : StatementScan).step 0 char =
      (⟨.plain, depth⟩ : StatementScan).step 0 char := by
    simp only [step, if_neg isNoStar]
  rw [over?_cons, over?_cons, sameStep]
  rfl

end StatementScan

section Statement

open StatementScan

/-- A text that a scan goes over is a row of characters and comments, unless the scan is
left in a comment. -/
theorem exists_comments_of_over?
    {quoting : Quoting}
    {depth : Nat}
    {text : Text}
    {final : StatementScan}
    (scanned : (⟨surroundingOf quoting, depth⟩ : StatementScan).over? text = some final)
    (leaves : ¬final.IsInComment) :
    ∃ bodies emptied, Comments quoting text bodies emptied := by
  -- The recursion is on the length of the text, as a comment is passed over as a whole.
  match text with
  | [] => exact ⟨[], [], .nil⟩
  | char :: rest =>
      by_cases slash : quoting = .outside ∧ char = '/'
      · obtain ⟨rfl, rfl⟩ := slash
        have overPlain : (⟨.plain, depth⟩ : StatementScan).over? ('/' :: rest) = some final :=
          scanned
        by_cases star : rest.head? = some '*'
        · obtain ⟨inside, rfl⟩ := List.head?_eq_some_iff.mp star
          rw [over?_openComment] at overPlain
          obtain ⟨body, behind, cut, overBehind⟩ | ⟨-, last, stays, staysIn⟩ :=
            over?_comment 0 depth inside
          · have parts := Text.eq_of_cutAt?_eq_some cut
            rw [parts] at cut
            have isBody : IsCommentBody body := Text.cutAt?_append_iff.mp cut
            have whole : '/' :: '*' :: inside = commented body ++ behind := by
              rw [parts, commented]
              simp
            have shorter : behind.length < ('/' :: '*' :: inside).length := by
              rw [whole, commented]
              simp
              omega
            have further : ∃ bodies emptied, Comments .outside behind bodies emptied :=
              exists_comments_of_over? (overBehind.symm.trans overPlain) leaves
            obtain ⟨bodies, emptied, comments⟩ := further
            rw [whole]
            exact ⟨_, _, .comment isBody comments⟩
          · cases stays.symm.trans overPlain
            exact absurd staysIn leaves
        · have opensNone : ¬OpensComment ('/' :: rest) := by
            rintro ⟨further, parts⟩
            rw [← (List.cons.inj parts).2] at star
            exact star rfl
          by_cases isEmpty : rest = []
          · subst isEmpty
            exact ⟨[], _, .char (fun _ => opensNone) .nil⟩
          · have step : (⟨.plain, depth⟩ : StatementScan).over? ('/' :: rest) =
                (⟨.afterSlash 0, depth⟩ : StatementScan).over? rest := by
              simp [over?_cons, endsAt, step, plainStep]
            rw [step, over?_afterSlash star isEmpty] at overPlain
            have further : ∃ bodies emptied, Comments .outside rest bodies emptied :=
              exists_comments_of_over? overPlain leaves
            obtain ⟨bodies, emptied, comments⟩ := further
            exact ⟨bodies, _, .char (fun _ => opensNone) comments⟩
      · have noSlash : quoting = .outside → char ≠ '/' := fun outside same =>
          slash ⟨outside, same⟩
        obtain ⟨depth', step⟩ := exists_step_surroundingOf noSlash depth
        rw [over?_cons, step] at scanned
        split at scanned
        · cases scanned
        · obtain ⟨bodies, emptied, comments⟩ := exists_comments_of_over? scanned leaves
          refine ⟨bodies, _, .char (fun outside opens => noSlash outside ?_) comments⟩
          exact (List.cons_prefix_cons.mp opens).1.symm
termination_by text.length

/-- What stands before a block is a row of characters and comments, also without the
blanks at its end. -/
theorem Stated.exists_comments
    {text between : Text}
    (stated : Stated (text ++ between) (some '{'))
    (blank : Text.isBlankText between = true) :
    ∃ bodies emptied, Comments .outside text bodies emptied := by
  obtain ⟨final, scanned, ends⟩ := stated.takes
  rw [over?_append] at scanned
  obtain ⟨middle, overText, overBetween⟩ := Option.bind_eq_some_iff.mp scanned
  refine exists_comments_of_over? overText fun inComment => ?_
  have ends : final.endsAt '{' = true := ends
  rw [(inComment.over_of_isBlankText blank overBetween).endsAt_eq_false] at ends
  cases ends

end Statement

/-! ## The comments of a selector -/

/-- The rules of legible nodes have selectors that go up to their blocks. -/
theorem Legible.stated_of_mem_sitesIn
    {nodes : List Node}
    {after : Text}
    {next : Option Char}
    (legible : Legible nodes after next)
    (block : Address)
    (number : Nat) :
    ∀ site ∈ sitesIn block number nodes, ∃ between, Text.isBlankText between = true ∧
      Stated (site.rule.selector ++ between) (some '{') := by
  induction legible generalizing block number with
  | nil gapped => simp [sitesIn]
  | rule gapped stated noBlank blank notAt inside others ihInside ihOthers =>
      intro site member
      rw [sitesIn, Node.sites] at member
      rcases List.mem_append.mp member with here | behind
      · rcases List.mem_cons.mp here with rfl | within
        · exact ⟨_, blank, stated⟩
        · exact ihInside _ _ site within
      · exact ihOthers _ _ site behind
  | atBlock gapped stated noBlank blank isAt inside others ihInside ihOthers =>
      intro site member
      rw [sitesIn, Node.sites] at member
      rcases List.mem_append.mp member with within | behind
      · exact ihInside _ _ site within
      · exact ihOthers _ _ site behind
  | @leaf node rest after next terminated others ih =>
      intro site member
      cases node with
      | rule | atBlock => exact terminated.elim
      | atStatement | declaration | comment => exact ih _ _ site member
  | @last node after next gapped unterminated =>
      cases node with
      | rule | atBlock | comment => exact unterminated.elim
      | atStatement | declaration => simp [sitesIn, Node.sites]

/-- The selector of a parsed rule is a row of characters and comments. -/
theorem exists_comments_of_parse
    {text : Text}
    {sheet : Stylesheet}
    (parsed : Stylesheet.parse text = .ok sheet) :
    ∀ site ∈ sheet.sites, ∃ bodies emptied,
      Comments .outside site.rule.selector bodies emptied := by
  intro site member
  obtain ⟨between, blank, stated⟩ :=
    (legible_of_parse parsed).stated_of_mem_sitesIn [] 0 site member
  exact stated.exists_comments blank

end Css
end ComponentPipeline
