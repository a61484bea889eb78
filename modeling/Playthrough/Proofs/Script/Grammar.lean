import Playthrough.Proofs.Script.Recognition

/-!
# The grammar of lines

What a line means can be read off its code: whether a colon ends it, which word it starts with, and
where blanks are. Each line fits exactly one meaning.

* `Opens`, `BeginsWith`, `JumpsTo`, `Returns`: what code can be like.
* `Header.Fits`, `Statement.Fits`: the meaning that goes with it.
* `headerOf_eq_iff`, `jumpTarget?_eq_some_iff`, `isReturn_iff`: what is recognised.
* `recognises_line`: the meaning of a line, by patterns and by its grammar.
-/

namespace Playthrough.Script

open Text

/-- Code that ends with a colon, but for blanks. -/
def Opens (code : List Char) : Prop := (trimEnd code).getLast? = some ':'

/-- Code that starts with a keyword: this is the run of small letters at the start, and the word
    ends behind it. -/
structure BeginsWith (keyword : String) (code : List Char) : Prop where
  letters : code.takeWhile Char.isLower = keyword.toList
  whole : ∀ c, (code.dropWhile Char.isLower).head? = some c → isWordChar c = false

/-- The keywords of headers. -/
def keywords : List String := ["label", "menu", "if", "elif", "else"]

/-- Code that names a target behind `jump` and blanks. -/
structure JumpsTo (target code : List Char) : Prop where
  exists_split : ∃ gap rest, code = "jump".toList ++ gap ++ target ++ rest ∧
    gap ≠ [] ∧ (∀ c ∈ gap, isBlank c = true) ∧ ∀ c ∈ rest, isBlank c = true
  ne_nil : target ≠ []
  not_blank : ∀ c ∈ target, isBlank c = false

/-- Code that starts with `return`, as a whole word. -/
def Returns (code : List Char) : Prop :=
  ∃ rest, code = "return".toList ++ rest ∧ ∀ c, rest.head? = some c → isWordChar c = false

/-- The kind of header that the code in front of a colon makes. -/
def Header.Fits (code : List Char) : Header → Prop
  | .label name => BeginsWith "label" code ∧ ∃ rest blanks,
      code = "label".toList ++ rest ++ ':' :: blanks ∧ (∀ c ∈ blanks, isBlank c = true) ∧
        name = String.ofList (trim (rest.takeWhile (· ≠ '(')))
  | .menu => BeginsWith "menu" code
  | .condition => BeginsWith "if" code
  | .branch .elif => BeginsWith "elif" code
  | .branch .otherwise => BeginsWith "else" code
  | .plain => ∀ keyword ∈ keywords, ¬ BeginsWith keyword code

/-- The meaning of a line with the given code and comment. -/
def Statement.Fits (line : String) (code : List Char) (comment : Option (List Char)) :
    Statement → Prop
  | .header kind => Opens code ∧ kind.Fits code
  | .jump target => ¬ Opens code ∧ JumpsTo target.toList code
  | .terminate dead => ¬ Opens code ∧ (∀ target, ¬ JumpsTo target code) ∧ Returns code ∧
      (dead = true ↔ ∃ text, comment = some text ∧ "dead".toList <:+: text)
  | .content text => ¬ Opens code ∧ (∀ target, ¬ JumpsTo target code) ∧ ¬ Returns code ∧ text = line

/-! ## Words -/

theorem endsWord_iff {text : List Char} :
    endsWord text = true ↔ ∀ c, text.head? = some c → isWordChar c = false := by
  cases text with
  | nil => simp [endsWord]
  | cons c text => simp [endsWord]

theorem afterKeyword?_eq_some_iff {keyword : String} {code rest : List Char} :
    afterKeyword? keyword code = some rest ↔ code = keyword.toList ++ rest :=
  List.isPrefixOf?_eq_some_iff_append_eq.trans eq_comm

theorem occurs_iff {part text : List Char} : occurs part text = true ↔ part <:+: text := by
  induction text with
  | nil => simp [occurs]
  | cons c text ih =>
    rw [occurs, Bool.or_eq_true, ih, List.isPrefixOf_iff_prefix, List.infix_cons_iff]

/-! ## Headers -/

theorem opens_iff {code : List Char} : Opens code ↔ ∃ text, headerText? code = some text := by
  simp only [headerText?_eq_some_iff, Opens, List.getLast?_eq_some_iff]

/-- The name of a label, without parameters and blanks. -/
theorem labelName_trimStart (rest : List Char) :
    labelName (trimStart rest) = trim (rest.takeWhile (· ≠ '(')) := by
  have htake : ∀ text : List Char, '(' ∉ text → text.takeWhile (· ≠ '(') = text := fun text htext =>
    List.takeWhile_eq_self_iff.2 fun c hc => decide_eq_true (ne_of_mem_of_not_mem hc htext)
  rw [labelName, trim_trimStart]
  by_cases hmem : '(' ∈ rest
  · obtain ⟨front, back, rfl, hfront⟩ := List.eq_append_cons_of_mem hmem
    rw [trim_append_cons (by decide), takeWhile_append_cons (by decide),
      takeWhile_append_cons (by decide), htake front hfront,
      htake _ fun h => hfront (trimStart_subset front h), trim_trimStart]
  · rw [htake rest hmem, htake _ fun h => hmem (trim_subset rest h), trim_trim]

section Header

variable {text blanks : List Char} {keyword : String}

theorem beginsWith_iff :
    BeginsWith keyword (text ++ ':' :: blanks) ↔
      String.ofList (text.takeWhile Char.isLower) = keyword ∧
        endsWord (text.dropWhile Char.isLower) = true := by
  have hends : endsWord ((text ++ ':' :: blanks).dropWhile Char.isLower) =
      endsWord (text.dropWhile Char.isLower) := by
    rw [dropWhile_append_cons (by decide), endsWord_append_cons (by decide +kernel)]
  have hletters : (text ++ ':' :: blanks).takeWhile Char.isLower = text.takeWhile Char.isLower :=
    takeWhile_append_cons (by decide)
  rw [← hends, endsWord_iff, ← hletters]
  constructor
  · rintro ⟨hword, hwhole⟩
    exact ⟨by rw [hword, String.ofList_toList], hwhole⟩
  · rintro ⟨rfl, hwhole⟩
    exact ⟨by rw [String.toList_ofList], hwhole⟩

theorem label_fits_iff (hblanks : ∀ c ∈ blanks, isBlank c = true)
    (hword : String.ofList (text.takeWhile Char.isLower) = "label")
    (hends : endsWord (text.dropWhile Char.isLower) = true) {name : String} :
    (Header.label name).Fits (text ++ ':' :: blanks) ↔
      String.ofList (labelName (trimStart (text.dropWhile Char.isLower))) = name := by
  have htext : text = "label".toList ++ text.dropWhile Char.isLower := by
    rw [← hword, String.toList_ofList, List.takeWhile_append_dropWhile]
  rw [labelName_trimStart]
  constructor
  · rintro ⟨-, rest, blanks', hcode, hblanks', rfl⟩
    have hrest := (eq_of_last_eq (by decide) hblanks hblanks' hcode).1
    rw [htext] at hrest
    rw [List.append_cancel_left hrest]
  · rintro rfl
    exact ⟨beginsWith_iff.2 ⟨hword, hends⟩, text.dropWhile Char.isLower, blanks, by rw [← htext],
      hblanks, rfl⟩

/-- Headers are told apart by their keywords. -/
theorem headerOf_eq_iff (hblanks : ∀ c ∈ blanks, isBlank c = true) (hline : '\n' ∉ text)
    {kind : Header} : headerOf text = kind ↔ kind.Fits (text ++ ':' :: blanks) := by
  unfold headerOf
  dsimp only
  rw [contains_argument hline, Bool.not_false, Bool.and_true]
  cases hends : endsWord (text.dropWhile Char.isLower) with
  | false =>
    rcases kind with name | _ | _ | (_ | _) | _ <;> simp [Header.Fits, beginsWith_iff, hends]
  | true =>
    rw [if_pos rfl]
    split
    · rename_i hword
      rcases kind with name | _ | _ | (_ | _) | _
      · rw [label_fits_iff hblanks hword hends, Header.label.injEq]
      all_goals simp [Header.Fits, beginsWith_iff, hword, hends, keywords]
    all_goals
      rcases kind with name | _ | _ | (_ | _) | _ <;> simp_all [Header.Fits, beginsWith_iff, keywords]

end Header

/-! ## Jumps and returns -/

theorem jumpTarget?_eq_some_iff {code target : List Char} :
    jumpTarget? code = some target ↔ JumpsTo target code := by
  constructor
  · intro h
    obtain ⟨rest, hrest, h⟩ := Option.bind_eq_some_iff.1 h
    rw [afterKeyword?_eq_some_iff] at hrest
    dsimp only at h
    split_ifs at h with hnone hblank
    obtain rfl := Option.some_inj.1 h
    rw [Bool.or_eq_true, not_or, List.isEmpty_iff, List.isEmpty_iff] at hnone
    refine ⟨⟨leading rest, _, ?_, hnone.1, fun _ => isBlank_of_mem_leading,
      List.all_eq_true.1 hblank⟩, hnone.2, fun c hc => ?_⟩
    · rw [List.append_assoc, List.takeWhile_append_dropWhile, List.append_assoc,
        leading_append_trimStart, hrest]
    · have := List.mem_takeWhile_imp hc
      simpa using this
  · rintro ⟨⟨gap, rest, rfl, hgap, hblank, hrest⟩, htarget, hword⟩
    obtain ⟨hleading, hstart⟩ : leading (gap ++ (target ++ rest)) = gap ∧
        trimStart (gap ++ (target ++ rest)) = target ++ rest := by
      refine run_append hblank fun c hc => ?_
      rw [List.head?_append_of_ne_nil _ htarget] at hc
      exact hword c (List.mem_of_head? hc)
    obtain ⟨htake, hdrop⟩ : (target ++ rest).takeWhile (!isBlank ·) = target ∧
        (target ++ rest).dropWhile (!isBlank ·) = rest :=
      run_append (fun c hc => by rw [hword c hc]; rfl)
        fun c hc => by rw [hrest c (List.mem_of_head? hc)]; rfl
    have hcode : afterKeyword? "jump" ("jump".toList ++ gap ++ target ++ rest) =
        some (gap ++ (target ++ rest)) := by
      rw [afterKeyword?_eq_some_iff]
      simp only [List.append_assoc]
    unfold jumpTarget?
    rw [hcode]
    show (if _ then none else if _ then some _ else none) = _
    rw [hleading, hstart, htake, hdrop, if_neg (by simp [hgap, htarget]),
      if_pos (List.all_eq_true.2 hrest)]

theorem isReturn_iff {code : List Char} : isReturn code = true ↔ Returns code := by
  rw [isReturn, Returns]
  cases hrest : afterKeyword? "return" code with
  | none =>
    refine iff_of_false (by simp) ?_
    rintro ⟨rest, hcode, -⟩
    rw [afterKeyword?_eq_some_iff.2 hcode] at hrest
    cases hrest
  | some rest =>
    rw [Option.map_some, Option.getD_some, endsWord_iff]
    obtain rfl := afterKeyword?_eq_some_iff.1 hrest
    constructor
    · exact fun hends => ⟨rest, rfl, hends⟩
    · rintro ⟨rest', hcode, hends⟩
      rwa [List.append_cancel_left hcode]

/-! ## Meanings -/

section Meaning

variable {line : String} {code : List Char} {comment : Option (List Char)}

theorem dead_iff : (comment.map (occurs "dead".toList)).getD false = true ↔
    ∃ text, comment = some text ∧ "dead".toList <:+: text := by
  cases comment with
  | none => simp
  | some text => simp [occurs_iff]

/-- A line has the meaning that fits it. -/
theorem statement_eq_iff (hline : '\n' ∉ line.toList)
    (hsplit : splitComment line.toList = ⟨code, comment⟩) {meaning : Statement} :
    statement line = meaning ↔ meaning.Fits line code comment := by
  have hcode : '\n' ∉ code := by
    intro hmem
    refine hline (code_subset _ ?_)
    rw [hsplit]
    exact hmem
  unfold statement
  rw [hsplit]
  dsimp only
  cases htext : headerText? code with
  | some text =>
    have hopens : Opens code := opens_iff.2 ⟨text, htext⟩
    obtain ⟨blanks, rfl, hblanks⟩ :=
      (trimEnd_eq_concat_iff (by decide)).1 (headerText?_eq_some_iff.1 htext)
    have hkind : ∀ {kind}, headerOf text = kind ↔ kind.Fits (text ++ ':' :: blanks) :=
      headerOf_eq_iff hblanks fun hmem => hcode (List.mem_append_left _ hmem)
    cases meaning <;> simp [Statement.Fits, hopens, hkind]
  | none =>
    have hopens : ¬ Opens code := by
      rw [opens_iff, htext]
      simp
    cases htarget : jumpTarget? code with
    | some target =>
      have hjump : ∀ t, JumpsTo t code ↔ target = t := fun t => by
        rw [← jumpTarget?_eq_some_iff, htarget, Option.some_inj]
      cases meaning with
      | jump t =>
        rw [Statement.jump.injEq, Statement.Fits, hjump]
        constructor
        · rintro rfl
          exact ⟨hopens, String.toList_ofList.symm⟩
        · rintro ⟨-, rfl⟩
          exact String.ofList_toList
      | _ => simp [Statement.Fits, hopens, hjump]
    | none =>
      have hjump : ∀ t, ¬ JumpsTo t code := fun t => by
        rw [← jumpTarget?_eq_some_iff, htarget]
        simp
      cases hreturn : isReturn code with
      | true =>
        have hreturns : Returns code := isReturn_iff.1 hreturn
        cases meaning with
        | terminate dead =>
          rw [if_pos rfl, Statement.terminate.injEq, Statement.Fits, ← dead_iff, ← Bool.eq_iff_iff,
            eq_comm]
          simp [hopens, hjump, hreturns]
        | _ => simp [Statement.Fits, hopens, hjump, hreturns]
      | false =>
        have hreturns : ¬ Returns code := fun h => by
          rw [isReturn_iff.2 h] at hreturn
          cases hreturn
        cases meaning with
        | content text => simp [Statement.Fits, hopens, hjump, hreturns, eq_comm]
        | _ => simp [Statement.Fits, hopens, hjump, hreturns]

end Meaning

/-- **The meaning of a line.** Looking for the patterns of headers, jumps and returns in the code of
    a line, in this order, gives its meaning. It is the one that the grammar gives: a header if a
    colon ends the code, whose kind is told by the word at the start; or else a jump, a return, or a
    line for the line reader. -/
theorem recognises_line (line : String) (hline : '\n' ∉ line.toList) :
    matched line = statement line ∧
    (∀ code comment, splitComment line.toList = ⟨code, comment⟩ →
      ((∃ kind, statement line = .header kind) ↔ Opens code) ∧
      ∀ meaning, statement line = meaning ↔ meaning.Fits line code comment) := by
  refine ⟨matched_eq_statement hline, fun code comment hsplit => ⟨?_, fun meaning =>
    statement_eq_iff hline hsplit⟩⟩
  constructor
  · rintro ⟨kind, hkind⟩
    exact ((statement_eq_iff hline hsplit).1 hkind).1
  · intro hopens
    have hfits := (statement_eq_iff hline hsplit).1 rfl
    cases hmeaning : statement line with
    | header kind => exact ⟨kind, rfl⟩
    | _ =>
      rw [hmeaning] at hfits
      exact absurd hopens hfits.1

/-- The header of a label with parameters, in which there are further colons. -/
def cellarLine : String := "label cellar (lamp: '#:') :  # dead"

/-- The parameters of the cellar are no part of its name. A word that goes on is no keyword, and a
    colon at the end makes a header even of a jump. -/
theorem recognises_line_cellar :
    (matched cellarLine = .header (.label "cellar") ∧ Opens "label cellar (lamp: '#:') :  ".toList ∧
      (Header.label "cellar").Fits "label cellar (lamp: '#:') :  ".toList) ∧
    (matched "label_2:" = .header .plain ∧ ¬ BeginsWith "label" "label_2:".toList) ∧
    (matched "jump cellar:" = .header .plain ∧ Opens "jump cellar:".toList) ∧
    JumpsTo ".stairs".toList "jump \t.stairs ".toList ∧
    (Statement.terminate true).Fits "return # dead" "return ".toList (some "# dead".toList) := by
  have hcellar : '\n' ∉ cellarLine.toList := by decide +kernel
  obtain ⟨hmatched, hgrammar⟩ := recognises_line cellarLine hcellar
  obtain ⟨hopens, hfits⟩ := hgrammar "label cellar (lamp: '#:') :  ".toList
    (some "# dead".toList) (by decide +kernel)
  have hlabel : statement cellarLine = .header (.label "cellar") := by decide +kernel
  refine ⟨⟨hmatched.trans hlabel, hopens.1 ⟨_, hlabel⟩, ((hfits _).1 hlabel).2⟩, ?_, ?_, ?_, ?_⟩
  · obtain ⟨hmatched, hgrammar⟩ := recognises_line "label_2:" (by decide +kernel)
    have hplain : statement "label_2:" = .header .plain := by decide +kernel
    have hfits := ((hgrammar "label_2:".toList none (by decide +kernel)).2 _).1 hplain
    exact ⟨hmatched.trans hplain, hfits.2 "label" List.mem_cons_self⟩
  · obtain ⟨hmatched, hgrammar⟩ := recognises_line "jump cellar:" (by decide +kernel)
    have hplain : statement "jump cellar:" = .header .plain := by decide +kernel
    have hopens := (hgrammar "jump cellar:".toList none (by decide +kernel)).1
    exact ⟨hmatched.trans hplain, hopens.1 ⟨_, hplain⟩⟩
  · have hgrammar := (recognises_line "jump \t.stairs " (by decide +kernel)).2
    have hjump : statement "jump \t.stairs " = .jump ".stairs" := by decide +kernel
    exact (((hgrammar "jump \t.stairs ".toList none (by decide +kernel)).2 _).1 hjump).2
  · have hgrammar := (recognises_line "return # dead" (by decide +kernel)).2
    exact ((hgrammar _ _ (by decide +kernel)).2 _).1 (by decide +kernel)

end Playthrough.Script
