import StageScript.Source.Line

/-! # What is left of a line
A line is stripped character by character. The same is left of it by three steps, one after another, each
of which looks at the whole text.
* `Line.withoutSeparators` — a text without the separators outside quotes;
* `Line.beforeComment` — what is in front of the first `//` outside quotes;
* **`Line.strip_eq`** — carriage returns go first, then separators, then the comment;
* **`Line.isInline_strip`** — so what is left of a line of a source stays on its line. -/

namespace StageScript

namespace Line

/-! ## The steps -/

/-- Spaces, tabs and semicolons separate. -/
def isSeparator (c : Char) : Bool := c = ' ' || c = '\t' || c = ';'

/-- **A text without the separators outside quotes**, where a quoted text may be open from before. -/
def withoutSeparators : (quoted : Bool) → Text → Text
  | _, [] => []
  | quoted, c :: rest =>
    if c = '"' then c :: withoutSeparators (!quoted) rest
    else if !quoted && isSeparator c then withoutSeparators quoted rest
    else c :: withoutSeparators quoted rest

/-- **The text in front of the first `//` outside quotes**, which is the whole text if there is none. -/
def beforeComment (text : Text) : Text := ((Text.cutAt? "//".toList text).map (·.1)).getD text

/-- What is left of a text in front of a comment that may begin in quotes. -/
def uncommented (quoted : Bool) (text : Text) : Text :=
  ((Text.cutAt?.go "//".toList text quoted []).map (·.1)).getD text

variable {c : Char} {kept text : Text} {quoted : Bool}

/-! ## Characters in front of a comment -/

/-- What has been passed stands in front of the cut. -/
theorem go_eq_map (token passed : Text) :
    Text.cutAt?.go token text quoted passed =
      (Text.cutAt?.go token text quoted []).map (Prod.map (passed.reverse ++ ·) id) := by
  induction text generalizing quoted passed with
  | nil => rfl
  | cons c text ih =>
    have behind (quoted : Bool) : Text.cutAt?.go token text quoted (c :: passed) =
        (Text.cutAt?.go token text quoted [c]).map (Prod.map (passed.reverse ++ ·) id) := by
      rw [ih (c :: passed), ih [c], Option.map_map]
      congr 1
      funext cut
      simp [Prod.map]
    rw [Text.cutAt?.go, Text.cutAt?.go]
    split
    · exact behind _
    · split
      · simp
      · exact behind _

/-- A character that begins no comment stays. -/
theorem uncommented_cons_of_go
    (passes : Text.cutAt?.go "//".toList (c :: text) quoted [] =
      Text.cutAt?.go "//".toList text (if c = '"' then !quoted else quoted) [c]) :
    uncommented quoted (c :: text) = c :: uncommented (if c = '"' then !quoted else quoted) text := by
  rw [uncommented, uncommented, passes, go_eq_map]
  cases Text.cutAt?.go "//".toList text (if c = '"' then !quoted else quoted) [] <;> rfl

@[simp] theorem uncommented_nil (quoted : Bool) : uncommented quoted [] = [] := rfl

/-- A quote opens or closes a quoted text. -/
@[simp] theorem uncommented_quote (quoted : Bool) (text : Text) :
    uncommented quoted ('"' :: text) = '"' :: uncommented (!quoted) text :=
  uncommented_cons_of_go (by rw [Text.cutAt?.go, if_pos rfl, if_pos rfl])

/-- Between quotes every character stays. -/
theorem uncommented_quoted (other : c ≠ '"') :
    uncommented true (c :: text) = c :: uncommented true text := by
  have stays := @uncommented_cons_of_go c text true (by
    rw [Text.cutAt?.go, if_neg other, if_neg other, Bool.not_true, Bool.false_and,
      if_neg Bool.false_ne_true])
  rwa [if_neg other] at stays

/-- Outside quotes a character stays unless it is a slash. -/
theorem uncommented_other (other : c ≠ '"') (noSlash : c ≠ '/') :
    uncommented false (c :: text) = c :: uncommented false text := by
  have stays := @uncommented_cons_of_go c text false (by
    rw [Text.cutAt?.go, if_neg other, if_neg other]
    simp [Ne.symm noSlash])
  rwa [if_neg other] at stays

/-- A slash stays in front of another character. -/
theorem uncommented_slash (other : c ≠ '/') :
    uncommented false ('/' :: c :: text) = '/' :: uncommented false (c :: text) := by
  have single : ¬ (!false && "//".toList.isPrefixOf ('/' :: c :: text)) = true := by
    simp [Ne.symm other]
  exact @uncommented_cons_of_go '/' (c :: text) false (by
    rw [Text.cutAt?.go, if_neg (by decide), if_neg single, if_neg (by decide)])

/-- Two slashes begin the comment. -/
@[simp] theorem uncommented_comment (text : Text) : uncommented false ('/' :: '/' :: text) = [] := rfl

@[simp] theorem uncommented_lone_slash : uncommented false ['/'] = ['/'] := rfl

/-! ## One character -/

/-- A character that is neither a carriage return nor a quote nor a separator. -/
structure IsPlain (c : Char) : Prop where
  noReturn : c ≠ '\r'
  noQuote : c ≠ '"'
  noSeparator : isSeparator c = false

theorem withoutSeparators_of_separator (other : c ≠ '"') (separator : isSeparator c = true) :
    withoutSeparators false (c :: text) = withoutSeparators false text := by
  simp [withoutSeparators, other, separator]

theorem withoutSeparators_quoted (other : c ≠ '"') :
    withoutSeparators true (c :: text) = c :: withoutSeparators true text := by
  simp [withoutSeparators, other]

theorem withoutSeparators_plain (plain : IsPlain c) :
    withoutSeparators false (c :: text) = c :: withoutSeparators false text := by
  simp [withoutSeparators, plain.noQuote, plain.noSeparator]

@[simp] theorem withoutSeparators_quote (quoted : Bool) (text : Text) :
    withoutSeparators quoted ('"' :: text) = '"' :: withoutSeparators (!quoted) text := by
  simp [withoutSeparators]

@[simp] theorem step_quote (kept : Text) (quoted : Bool) :
    Scan.step { kept, quoted } '"' = { kept := '"' :: kept, quoted := !quoted } := by
  simp [Scan.step]

theorem step_quoted (noReturn : c ≠ '\r') (noQuote : c ≠ '"') :
    Scan.step { kept, quoted := true } c = { kept := c :: kept, quoted := true } := by
  simp [Scan.step, noReturn, noQuote]

theorem step_separator (noReturn : c ≠ '\r') (noQuote : c ≠ '"') (separator : isSeparator c = true) :
    Scan.step { kept } c = { kept } := by
  simp_all [Scan.step, isSeparator]

/-- Outside quotes a character is kept unless it is the second slash of a comment. -/
theorem step_plain (plain : IsPlain c) (single : ¬ (c = '/' ∧ kept.head? = some '/')) :
    Scan.step { kept } c = { kept := c :: kept } := by
  obtain ⟨noReturn, noQuote, noSeparator⟩ := plain
  simp only [isSeparator, Bool.or_eq_false_iff, decide_eq_false_iff_not] at noSeparator
  obtain ⟨⟨noSpace, noTab⟩, noSemicolon⟩ := noSeparator
  simp only [Scan.step, noReturn, noQuote, noSpace, noTab, noSemicolon, Bool.false_eq_true,
    decide_false, Bool.or_self, if_false, Bool.and_eq_true, decide_eq_true_eq, single]

theorem step_comment (kept : Text) :
    Scan.step { kept := '/' :: kept } '/' = { kept, comment := true } := by
  simp [Scan.step]

/-- Nothing is kept of a comment. -/
theorem kept_foldl_of_comment {scan : Scan} (comment : scan.comment = true) (text : Text) :
    (text.foldl Scan.step scan).kept = scan.kept := by
  induction text with
  | nil => rfl
  | cons c text ih =>
    have step : scan.step c = scan := by simp [Scan.step, comment]
    rw [List.foldl_cons, step, ih]

/-! ## Whole lines -/

/-- **How far the stripping has come decides what is left.** Behind a slash outside quotes the next
character may make a comment of it, so that the slash is held back; otherwise what has been kept stays. -/
theorem reverse_kept_foldl (text : Text) :
    (∀ (quoted : Bool) (kept : Text), (quoted = false → kept.head? ≠ some '/') →
      (text.foldl Scan.step { kept, quoted }).kept.reverse =
        kept.reverse ++ uncommented quoted (withoutSeparators quoted (text.filter (· ≠ '\r')))) ∧
    ∀ kept : Text, (text.foldl Scan.step { kept := '/' :: kept }).kept.reverse =
      kept.reverse ++
        uncommented false ('/' :: withoutSeparators false (text.filter (· ≠ '\r'))) := by
  -- Both parts in one induction: a slash leads from the first to the second, anything behind it
  -- back.
  induction text with
  | nil => simp [withoutSeparators]
  | cons c text ih =>
    obtain ⟨settled, held⟩ := ih
    by_cases return_ : c = '\r'
    · subst return_
      exact ⟨settled, held⟩
    have filtered : (c :: text).filter (· ≠ '\r') = c :: text.filter (· ≠ '\r') := by simp [return_]
    rw [filtered]
    simp only [List.foldl_cons]
    by_cases quote : c = '"'
    · subst quote
      constructor
      · intro quoted kept _
        rw [step_quote, settled _ _ (by simp)]
        simp
      · intro kept
        rw [step_quote, settled _ _ (by simp)]
        simp [uncommented_slash]
    -- Inside quotes everything is kept, so what is left to tell apart is for outside of them.
    have quoted (kept : Text) :
        (text.foldl Scan.step (Scan.step { kept, quoted := true } c)).kept.reverse =
          kept.reverse ++
            uncommented true (withoutSeparators true (c :: text.filter (· ≠ '\r'))) := by
      rw [step_quoted return_ quote, settled _ _ (by simp), withoutSeparators_quoted quote,
        uncommented_quoted quote]
      simp
    by_cases separator : isSeparator c = true
    · rw [withoutSeparators_of_separator quote separator]
      constructor
      · intro open_ kept bare
        cases open_ with
        | true => exact quoted kept
        | false =>
          rw [step_separator return_ quote separator, settled _ _ bare,
            withoutSeparators_of_separator quote separator]
      · intro kept
        rw [step_separator return_ quote separator, held]
    have plain : IsPlain c := ⟨return_, quote, by simpa using separator⟩
    by_cases slash : c = '/'
    · subst slash
      rw [withoutSeparators_plain plain]
      constructor
      · intro open_ kept bare
        cases open_ with
        | true => exact quoted kept
        | false =>
          rw [step_plain plain fun both => bare rfl both.2, held, withoutSeparators_plain plain]
      · -- the second slash takes back the first
        intro kept
        rw [step_comment, kept_foldl_of_comment rfl, uncommented_comment, List.append_nil]
    · have kept_ (kept : Text) : (text.foldl Scan.step (Scan.step { kept } c)).kept.reverse =
          kept.reverse ++ c :: uncommented false (withoutSeparators false (text.filter (· ≠ '\r'))) := by
        rw [step_plain plain fun both => slash both.1, settled _ _ (by simp [slash])]
        simp
      rw [withoutSeparators_plain plain]
      constructor
      · intro open_ kept _
        cases open_ with
        | true => exact quoted kept
        | false => rw [kept_, withoutSeparators_plain plain, uncommented_other quote slash]
      · intro kept
        rw [kept_, uncommented_slash slash, uncommented_other quote slash]
        simp

/-- **Stripping a line** takes out the carriage returns, then the separators outside quotes, and then
the comment. -/
theorem strip_eq (piece : Text) :
    strip piece = beforeComment (withoutSeparators false (piece.filter (· ≠ '\r'))) :=
  (reverse_kept_foldl piece).1 false [] (by simp)

example : strip "Load( \"a // b;\" ) ; / / \"c".toList = "Load(\"a // b;\")".toList := by decide

end Line

/-! ## Texts of one line -/

/-- **A text that stays on its line.** -/
def Text.IsInline (text : Text) : Prop := '\r' ∉ text ∧ '\n' ∉ text

instance (text : Text) : Decidable text.IsInline :=
  inferInstanceAs (Decidable ('\r' ∉ text ∧ '\n' ∉ text))

namespace Text.IsInline

variable {text other : Text}

theorem of_subset (h : text.IsInline) (within : other ⊆ text) : other.IsInline :=
  ⟨fun member => h.1 (within member), fun member => h.2 (within member)⟩

theorem of_forall (h : ∀ c ∈ text, c ≠ '\r' ∧ c ≠ '\n') : text.IsInline :=
  ⟨fun member => (h _ member).1 rfl, fun member => (h _ member).2 rfl⟩

theorem append (h : text.IsInline) (h' : other.IsInline) : Text.IsInline (text ++ other) := by
  simp only [Text.IsInline, List.mem_append, not_or]
  exact ⟨⟨h.1, h'.1⟩, h.2, h'.2⟩

end Text.IsInline

namespace Line

/-- A character is kept or left out, and a carriage return is left out. -/
theorem Scan.mem_kept_step {scan : Scan} {c d : Char} (member : d ∈ (scan.step c).kept) :
    d ∈ scan.kept ∨ d = c ∧ c ≠ '\r' := by
  by_cases return_ : c = '\r'
  · have same : scan.step c = scan := by simp [step, return_]
    exact .inl (same ▸ member)
  · have kept : (scan.step c).kept ⊆ c :: scan.kept := by
      unfold step
      repeat' split
      all_goals first
        | exact List.Subset.refl _
        | exact List.subset_cons_self ..
        | exact fun _ inTail => List.mem_cons_of_mem _ (List.mem_of_mem_tail inTail)
    exact (List.mem_cons.1 (kept member)).symm.imp_right fun same => ⟨same, return_⟩

/-- What is left of a line stood in it, and is no carriage return. -/
theorem mem_strip {piece : Text} {c : Char} (member : c ∈ strip piece) : c ∈ piece ∧ c ≠ '\r' := by
  suffices kept : ∀ scan : Scan, c ∈ (piece.foldl Scan.step scan).kept →
      c ∈ scan.kept ∨ c ∈ piece ∧ c ≠ '\r' by
    exact (kept {} (List.mem_reverse.1 member)).resolve_left List.not_mem_nil
  clear member
  induction piece with
  | nil => exact fun scan member => .inl member
  | cons first piece ih =>
    intro scan member
    rcases ih _ member with early | ⟨late, noReturn⟩
    · rcases Scan.mem_kept_step early with old | ⟨rfl, noReturn⟩
      · exact .inl old
      · exact .inr ⟨List.mem_cons_self, noReturn⟩
    · exact .inr ⟨List.mem_cons_of_mem _ late, noReturn⟩

/-- **A stripped line** stays on its line. -/
theorem isInline_strip {piece : Text} (single : '\n' ∉ piece) : (strip piece).IsInline :=
  ⟨fun member => (mem_strip member).2 rfl, fun member => single (mem_strip member).1⟩

end Line

end StageScript
