import Playthrough.Proofs.Draft.Nesting
import Playthrough.Reading.Plain

/-!
# Lines are cut at one place

A line is cut at its comment twice: as a whole, to see whether it has any code, and again behind its
indentation, to see what it means. Blanks start neither a comment nor a quoted text, so both cuts are
at the same `#`, and only lines with code get as far as the second.

* `CutAlike`: the two cuts of a line.
* `Tidy.cutAlike`: they agree for every line that is aligned.
* `Draft.feedAllBy`: reading with other meanings of lines; `Tidy.feedAllBy_eq` shows that the meaning
  of a line without code is never asked for.
* `cuts_line`: how lines are cut, and where this is used.
-/

namespace Playthrough

open Script Text

variable {κ : Type}

/-- A line and what is left of it behind its indentation are cut at the same place, and there is code
    in front of it. -/
structure CutAlike (line rest : List Char) : Prop where
  line_eq : line = leading line ++ rest
  code_eq : (splitComment line).code = leading line ++ (splitComment rest).code
  comment_eq : (splitComment line).comment = (splitComment rest).comment
  isCode : isBlankLine rest = false

theorem cutAlike_trimStart {line : List Char} (h : isBlankLine line = false) :
    CutAlike line (trimStart line) := by
  have hblanks : Blanks (leading line) := fun _ => isBlank_of_mem_leading
  have hsplit := splitComment_blanks hblanks (trimStart line)
  have hcode := isBlankLine_blanks hblanks (trimStart line)
  rw [leading_append_trimStart] at hsplit hcode
  refine ⟨(leading_append_trimStart line).symm, ?_, ?_, hcode.symm.trans h⟩
  · rw [hsplit, Split.prepend]
  · rw [hsplit, Split.prepend]

namespace Draft

variable {draft aligned : Draft κ} {line rest : List Char} {number : Nat}
variable {reader : LineReader κ} {meaning : String → Statement}

theorem Tidy.cutAlike (h : Tidy draft) (hcode : isBlankLine line = false)
    (halign : draft.align line number = .ok (aligned, rest)) : CutAlike line rest := by
  rw [h.align_rest halign]
  exact cutAlike_trimStart hcode

/-! ## Other meanings -/

/-- Reads a line, where lines without indentation have the given meanings. -/
def feedBy (meaning : String → Statement) (reader : LineReader κ) (line : String) (number : Nat)
    (draft : Draft κ) : Except (Fault κ) (Draft κ) := do
  let draft := { draft with lastLine := number }
  if isBlankLine line.toList then return draft
  else
    let (draft, rest) ← draft.align line.toList number
    draft.obey reader (meaning (String.ofList rest)) number

/-- Reads numbered lines, up to the first fault, where lines without indentation have the given
    meanings. -/
def feedAllBy (meaning : String → Statement) (reader : LineReader κ) (lines : List (String × Nat))
    (draft : Draft κ) : Except (Fault κ) (Draft κ) :=
  lines.foldlM (fun draft line => draft.feedBy meaning reader line.1 line.2) draft

theorem feedBy_statement (line : String) :
    draft.feedBy statement reader line number = draft.feed reader line number := rfl

theorem feed_blank {line : String} (h : isBlankLine line.toList = true) :
    draft.feed reader line number = .ok { draft with lastLine := number } := by
  unfold feed
  dsimp only
  rw [if_pos h]
  rfl

/-- Reading a line asks for no meaning of a line without code. -/
theorem Tidy.feedBy_eq (h : Tidy draft)
    (hmeaning : ∀ text, isBlankLine text.toList = false → meaning text = statement text)
    (line : String) (number : Nat) :
    draft.feedBy meaning reader line number = draft.feed reader line number := by
  rw [← feedBy_statement]
  unfold feedBy
  dsimp only
  cases hblank : isBlankLine line.toList with
  | true => rfl
  | false =>
    simp only [Bool.false_eq_true, if_false]
    cases halign : Draft.align line.toList number { draft with lastLine := number } with
    | error fault => rfl
    | ok result =>
      obtain ⟨aligned, rest⟩ := result
      have hcut := (h.mark_line number).cutAlike hblank halign
      have hrest : isBlankLine (String.ofList rest).toList = false := by
        rw [String.toList_ofList, hcut.isCode]
      show aligned.obey reader (meaning (String.ofList rest)) number = _
      rw [hmeaning _ hrest]
      rfl

/-- Nor does reading a script. -/
theorem Tidy.feedAllBy_eq (h : Tidy draft)
    (hmeaning : ∀ text, isBlankLine text.toList = false → meaning text = statement text)
    (lines : List (String × Nat)) :
    draft.feedAllBy meaning reader lines = draft.feedAll reader lines := by
  induction lines generalizing draft with
  | nil => rfl
  | cons line lines ih =>
    rw [feedAllBy, Draft.feedAll, List.foldlM_cons, List.foldlM_cons, h.feedBy_eq hmeaning]
    cases hfeed : draft.feed reader line.1 line.2 with
    | error fault => rfl
    | ok after => exact ih (h.feed hfeed).1

/-! ## Lines -/

/-- **Comments.** A line has a comment exactly if a `#` follows code in which all quoted texts are
    ended and no other `#` stands outside of them, and then it is cut there; other lines are all
    code. Code and comment together are the line, code has no comment of its own, and blanks in
    front of a line stay in front of its code. So when a line is read into the draft of a script,
    the line as a whole and what is left of it behind its indentation are cut at the same place, and
    what a line without code would mean makes no difference to any script. -/
theorem cuts_line (reader : LineReader κ) (line : String) :
    (∀ code comment, splitComment line.toList = ⟨code, some comment⟩ ↔
      line.toList = code ++ comment ∧ comment.head? = some '#' ∧ Complete code) ∧
    ((splitComment line.toList).comment = none → (splitComment line.toList).code = line.toList) ∧
    (splitComment line.toList).code ++ (splitComment line.toList).comment.getD [] = line.toList ∧
    splitComment (splitComment line.toList).code = ⟨(splitComment line.toList).code, none⟩ ∧
    (∀ blanks, Blanks blanks → splitComment (blanks ++ line.toList) =
      ⟨blanks ++ (splitComment line.toList).code, (splitComment line.toList).comment⟩) ∧
    (∀ lines draft, start.feedAll reader lines = .ok draft → ∀ number,
      (isBlankLine line.toList = true →
        draft.feed reader line number = .ok { draft with lastLine := number }) ∧
      (isBlankLine line.toList = false → ∀ aligned rest,
        { draft with lastLine := number }.align line.toList number = .ok (aligned, rest) →
          draft.feed reader line number =
              aligned.obey reader (statement (String.ofList rest)) number ∧
            CutAlike line.toList rest)) ∧
    ∀ meaning : String → Statement,
      (∀ text, isBlankLine text.toList = false → meaning text = statement text) →
      ∀ lines, start.feedAllBy meaning reader lines = start.feedAll reader lines := by
  refine ⟨fun code comment => splitComment_eq_some_iff, code_of_comment_eq_none,
    splitComment_join line.toList, splitComment_code line.toList,
    fun blanks hblanks => splitComment_blanks hblanks line.toList, ?_,
    fun meaning hmeaning lines => tidy_start.feedAllBy_eq hmeaning lines⟩
  intro lines draft hread number
  have htidy := ((tidy_start.feedAll hread).1).mark_line number
  refine ⟨feed_blank, fun hcode aligned rest halign => ?_⟩
  exact ⟨feed_of_align reader hcode halign, htidy.cutAlike hcode halign⟩

/-- Someone speaks in the attic, with a `#` between quotes and a comment with quotes of its own. -/
def atticLine : String := "  e \"it's #1\" # not '#2"

/-- The line in the attic is cut at its second `#`, also behind a further tab, and a quoted text that
    is not ended has no comment. The line goes into the body of the attic with both of its cuts
    alike. A remark changes nothing there, whatever it might mean. -/
theorem cuts_line_attic :
    (splitComment atticLine.toList = ⟨"  e \"it's #1\" ".toList, some "# not '#2".toList⟩ ∧
      Complete "  e \"it's #1\" ".toList) ∧
    (splitComment "e 'don\\'t #".toList).code = "e 'don\\'t #".toList ∧
    splitComment (['\t'] ++ atticLine.toList) =
      ⟨['\t'] ++ "  e \"it's #1\" ".toList, some "# not '#2".toList⟩ ∧
    (∃ attic : Draft ℕ, start.feedAll LineReader.scenes [("label attic:", 1)] = .ok attic ∧
      attic.feed LineReader.scenes " # 'dead'" 2 = .ok { attic with lastLine := 2 } ∧
      ∃ aligned : Draft ℕ, attic.feed LineReader.scenes atticLine 2 =
          aligned.obey LineReader.scenes (statement "e \"it's #1\" # not '#2") 2 ∧
        CutAlike atticLine.toList "e \"it's #1\" # not '#2".toList) ∧
    feedAllBy (fun text => if isBlankLine text.toList then .jump "nowhere" else statement text)
        LineReader.scenes [("label attic:", 1), (" # 'dead'", 2), (atticLine, 3)] start =
      feedAll LineReader.scenes [("label attic:", 1), (" # 'dead'", 2), (atticLine, 3)]
        (start : Draft ℕ) := by
  have hsplit : splitComment atticLine.toList =
      ⟨"  e \"it's #1\" ".toList, some "# not '#2".toList⟩ := by decide +kernel
  have hread : (do
      let attic ← (start : Draft ℕ).feedAll LineReader.scenes [("label attic:", 1)]
      return ((← { attic with lastLine := 2 }.align atticLine.toList 2).2)) =
      Except.ok "e \"it's #1\" # not '#2".toList := by decide +kernel
  obtain ⟨attic, hattic, hread⟩ := bind_eq_ok.1 hread
  obtain ⟨⟨aligned, rest⟩, halign, hrest⟩ := bind_eq_ok.1 hread
  obtain rfl := Except.ok.inj hrest
  obtain ⟨hcut, -, -, -, hblanks, hfeed, hmeaning⟩ :=
    cuts_line (LineReader.scenes : LineReader ℕ) atticLine
  refine ⟨⟨hsplit, ((hcut _ _).1 hsplit).2.2⟩, ?_, ?_, ⟨attic, hattic, ?_, aligned, ?_⟩, ?_⟩
  · exact (cuts_line (LineReader.scenes : LineReader ℕ) _).2.1 (by decide +kernel)
  · have htab : Blanks ['\t'] := fun c hc => by rw [List.mem_singleton.1 hc]; decide
    rw [hblanks _ htab, hsplit]
  · exact ((cuts_line _ " # 'dead'").2.2.2.2.2.1 _ _ hattic 2).1 (by decide +kernel)
  · obtain ⟨hobey, halike⟩ := (hfeed _ _ hattic 2).2 (by decide +kernel) aligned _ halign
    exact ⟨by rw [hobey, String.ofList_toList], halike⟩
  · refine hmeaning _ (fun text htext => ?_) _
    rw [htext]
    rfl

end Draft

end Playthrough
