import StageScript.Proofs.Program.Utf8
import StageScript.Proofs.Source.Blanking
import StageScript.Proofs.Source.Reader
import StageScript.Proofs.Source.Stripping

/-! # Reading the bytes of a source
A source lies in memory as bytes, and its lines are read from them in one pass that looks at one byte at
a time. All that it looks for are ASCII characters, which are no parts of other characters.
* `Bytes.Scan.step`, `Bytes.readLine`, `Bytes.readLines` — the pass over the bytes;
* **`Bytes.readLines_encode`** — it finds the lines that the text has;
* **`Line.ofSource_eq_stages`** — these are the pieces between newlines, numbered, each without what
  three steps take out. -/

namespace StageScript

/-! ## Reading bytes -/

namespace Bytes

/-- How far the reading of one line has come. -/
structure Scan where
  /-- The bytes kept so far, latest first. -/
  kept : List UInt8 := []
  quoted : Bool := false
  comment : Bool := false

/-- Reads one byte of a line. -/
def Scan.step (scan : Scan) (b : UInt8) : Scan :=
  if b = 0x0D || scan.comment then scan
  else if b = 0x22 then { scan with kept := b :: scan.kept, quoted := !scan.quoted }
  else if scan.quoted then { scan with kept := b :: scan.kept }
  else if b = 0x20 || b = 0x09 || b = 0x3B then scan
  else if b = 0x2F && scan.kept.head? = some 0x2F then
    { scan with kept := scan.kept.tail, comment := true }
  else { scan with kept := b :: scan.kept }

/-- Reads bytes up to a newline or the end, and gives the text that was kept with the bytes behind. -/
def readLine : Scan → List UInt8 → Text × List UInt8
  | scan, [] => (Utf8.decodeLossy scan.kept.reverse, [])
  | scan, b :: rest =>
    if b = 0x0A then (Utf8.decodeLossy scan.kept.reverse, rest) else readLine (scan.step b) rest

theorem length_readLine_le (scan : Scan) (bytes : List UInt8) :
    (readLine scan bytes).2.length ≤ bytes.length := by
  induction bytes generalizing scan with
  | nil => simp [readLine]
  | cons b rest ih =>
    rw [readLine]
    split
    · simp
    · exact Nat.le_succ_of_le (ih _)

/-- Reading a line takes a byte at least. -/
theorem length_readLine_lt (b : UInt8) (rest : List UInt8) :
    (readLine {} (b :: rest)).2.length < (b :: rest).length := by
  rw [readLine]
  split
  · simp
  · exact Nat.lt_succ_of_le (length_readLine_le _ _)

/-- **Reads the lines of a source** that follow some others, until no byte is left. -/
def readLines (before : Nat) : List UInt8 → List Line
  | [] => []
  | b :: rest =>
    ⟨before + 1, (readLine {} (b :: rest)).1⟩ :: readLines (before + 1) (readLine {} (b :: rest)).2
termination_by bytes => bytes.length
decreasing_by exact length_readLine_lt b rest

@[simp] theorem readLines_nil (before : Nat) : readLines before [] = [] := by rw [readLines]

theorem readLines_of_ne_nil {bytes : List UInt8} (before : Nat) (some_ : bytes ≠ []) :
    readLines before bytes =
      ⟨before + 1, (readLine {} bytes).1⟩ :: readLines (before + 1) (readLine {} bytes).2 := by
  cases bytes with
  | nil => exact absurd rfl some_
  | cons b rest => rw [readLines]

end Bytes

/-! ## Characters as bytes -/

namespace Utf8

variable {c e : Char}

theorem encode_cons (c : Char) (text : Text) :
    encode (c :: text) = String.utf8EncodeChar c ++ encode text := rfl

theorem encode_concat (text : Text) (c : Char) :
    encode (text ++ [c]) = encode text ++ String.utf8EncodeChar c := by
  simp [encode]

theorem encode_ne_nil {text : Text} (some_ : text ≠ []) : encode text ≠ [] := by
  cases text with
  | nil => exact absurd rfl some_
  | cons c text =>
    rw [encode_cons]
    exact List.append_ne_nil_of_left_ne_nil String.utf8EncodeChar_ne_nil _

/-- An ASCII character is one byte. -/
theorem utf8EncodeChar_of_lt (ascii : c.toNat < 0x80) :
    String.utf8EncodeChar c = [UInt8.ofNat c.toNat] := by
  have least : c.val.toNat ≤ 0x7F := Nat.le_of_lt_succ ascii
  unfold String.utf8EncodeChar
  dsimp only
  rw [if_pos least]
  rfl

/-- The bytes of other characters are no ASCII characters. -/
theorem le_of_mem_utf8EncodeChar (other : 0x80 ≤ c.toNat) {b : UInt8}
    (member : b ∈ String.utf8EncodeChar c) : 0x80 ≤ b.toNat := by
  have beyond : ¬ c.val.toNat ≤ 0x7F := Nat.not_le_of_gt other
  have valid : c.val.toNat < 0x110000 := by
    rcases c.valid with small | ⟨-, large⟩
    · exact Nat.lt_trans small (by decide)
    · exact large
  unfold String.utf8EncodeChar at member
  dsimp only at member
  generalize c.val.toNat = v at member beyond valid
  rw [if_neg beyond] at member
  split at member
  · simp only [List.mem_cons, List.not_mem_nil, or_false] at member
    rcases member with rfl | rfl <;> rw [UInt8.toNat_ofNat'] <;> omega
  · split at member
    · simp only [List.mem_cons, List.not_mem_nil, or_false] at member
      rcases member with rfl | rfl | rfl <;> rw [UInt8.toNat_ofNat'] <;> omega
    · simp only [List.mem_cons, List.not_mem_nil, or_false] at member
      rcases member with rfl | rfl | rfl | rfl <;> rw [UInt8.toNat_ofNat'] <;> omega

/-- Two ASCII characters are told apart by their bytes. -/
theorem ofNat_eq_iff (ascii : c.toNat < 0x80) (ascii' : e.toNat < 0x80) :
    UInt8.ofNat c.toNat = UInt8.ofNat e.toNat ↔ c = e := by
  rw [← UInt8.toNat_inj, UInt8.toNat_ofNat', UInt8.toNat_ofNat', ← Char.toNat_inj]
  omega

/-- **An ASCII character is found among bytes** only where it stands in the text. -/
theorem mem_utf8EncodeChar_iff (ascii : e.toNat < 0x80) :
    UInt8.ofNat e.toNat ∈ String.utf8EncodeChar c ↔ c = e := by
  by_cases small : c.toNat < 0x80
  · rw [utf8EncodeChar_of_lt small, List.mem_singleton, ofNat_eq_iff ascii small]
    exact eq_comm
  · constructor
    · intro member
      have beyond := le_of_mem_utf8EncodeChar (Nat.le_of_not_lt small) member
      rw [UInt8.toNat_ofNat'] at beyond
      omega
    · rintro rfl
      exact absurd ascii small

end Utf8

/-! ## One pass over characters or bytes -/

namespace Bytes

variable {c : Char} {scan : Line.Scan}

/-- What has come of reading bytes where a line has been stripped that far. -/
def ofScan (scan : Line.Scan) : Scan where
  kept := (Utf8.encode scan.kept.reverse).reverse
  quoted := scan.quoted
  comment := scan.comment

/-- The bytes of the character that was kept last come first. -/
theorem ofScan_cons (c : Char) (kept : Text) (quoted comment : Bool) :
    ofScan { kept := c :: kept, quoted, comment } =
      { kept := (String.utf8EncodeChar c).reverse ++ (ofScan { kept }).kept, quoted, comment } := by
  simp [ofScan, Utf8.encode_concat]

/-- The last byte that was kept is a slash exactly if the last character is one. -/
theorem head?_ofScan (scan : Line.Scan) :
    (ofScan scan).kept.head? = some 0x2F ↔ scan.kept.head? = some '/' := by
  obtain ⟨kept, quoted, comment⟩ := scan
  cases kept with
  | nil => simp [ofScan, Utf8.encode]
  | cons c kept =>
    rw [ofScan_cons, List.head?_cons, Option.some.injEq]
    constructor
    · intro head
      obtain ⟨b, bytes, written⟩ := List.exists_cons_of_ne_nil (l := (String.utf8EncodeChar c).reverse)
        (by simp [String.utf8EncodeChar_ne_nil])
      rw [written] at head
      obtain rfl := Option.some.inj head
      have member := List.mem_reverse.1 (written ▸ List.mem_cons_self)
      exact (Utf8.mem_utf8EncodeChar_iff (show '/'.toNat < 0x80 by decide)).1 member
    · rintro rfl
      rfl

/-- Behind a slash the bytes that are left are those of the characters that are left. -/
theorem tail_ofScan (scan : Line.Scan) (slash : scan.kept.head? = some '/') (comment : Bool) :
    { ofScan scan with kept := (ofScan scan).kept.tail, comment } =
      ofScan { scan with kept := scan.kept.tail, comment } := by
  obtain ⟨kept, quoted, open_⟩ := scan
  cases kept with
  | nil => cases slash
  | cons c kept =>
    obtain rfl := Option.some.inj slash
    rw [ofScan_cons]
    rfl

/-- **An ASCII character is stripped** as its byte is read. -/
theorem step_ofScan (ascii : c.toNat < 0x80) (scan : Line.Scan) :
    (ofScan scan).step (UInt8.ofNat c.toNat) = ofScan (scan.step c) := by
  have same (e : Char) (small : e.toNat < 0x80) :
      UInt8.ofNat c.toNat = UInt8.ofNat e.toNat ↔ c = e := Utf8.ofNat_eq_iff ascii small
  have return_ : UInt8.ofNat c.toNat = 0x0D ↔ c = '\r' := same '\r' (by decide)
  have quote : UInt8.ofNat c.toNat = 0x22 ↔ c = '"' := same '"' (by decide)
  have space : UInt8.ofNat c.toNat = 0x20 ↔ c = ' ' := same ' ' (by decide)
  have tab : UInt8.ofNat c.toNat = 0x09 ↔ c = '\t' := same '\t' (by decide)
  have semicolon : UInt8.ofNat c.toNat = 0x3B ↔ c = ';' := same ';' (by decide)
  have slash : UInt8.ofNat c.toNat = 0x2F ↔ c = '/' := same '/' (by decide)
  have pushed (quoted : Bool) :
      { ofScan scan with kept := UInt8.ofNat c.toNat :: (ofScan scan).kept, quoted } =
        ofScan { scan with kept := c :: scan.kept, quoted } := by
    rw [ofScan_cons, Utf8.utf8EncodeChar_of_lt ascii]
    rfl
  have quoted : (ofScan scan).quoted = scan.quoted := rfl
  have comment : (ofScan scan).comment = scan.comment := rfl
  simp only [Scan.step, Line.Scan.step, return_, quote, space, tab, semicolon, slash, quoted, comment,
    head?_ofScan]
  -- both passes ask the same questions in the same order
  by_cases skips : (decide (c = '\r') || scan.comment) = true
  · rw [if_pos skips, if_pos skips]
  rw [if_neg skips, if_neg skips]
  by_cases isQuote : c = '"'
  · rw [if_pos isQuote, if_pos isQuote]
    exact pushed _
  rw [if_neg isQuote, if_neg isQuote]
  by_cases inside : scan.quoted = true
  · rw [if_pos inside, if_pos inside]
    exact pushed _
  rw [if_neg inside, if_neg inside]
  by_cases separates : (decide (c = ' ') || decide (c = '\t') || decide (c = ';')) = true
  · rw [if_pos separates, if_pos separates]
  rw [if_neg separates, if_neg separates]
  by_cases comments : (decide (c = '/') && decide (scan.kept.head? = some '/')) = true
  · rw [if_pos comments, if_pos comments]
    rw [Bool.and_eq_true, decide_eq_true_eq, decide_eq_true_eq] at comments
    exact tail_ofScan scan comments.2 true
  · rw [if_neg comments, if_neg comments]
    exact pushed _

/-- A byte beyond ASCII is kept in front of a comment. -/
theorem step_of_le {scan : Scan} {b : UInt8} (beyond : 0x80 ≤ b.toNat) :
    scan.step b = if scan.comment then scan else { scan with kept := b :: scan.kept } := by
  have other (e : UInt8) (ascii : e.toNat < 0x80) : b ≠ e := by
    rintro rfl
    omega
  simp only [Scan.step, other 0x0D (by decide), other 0x22 (by decide), other 0x20 (by decide),
    other 0x09 (by decide), other 0x3B (by decide), other 0x2F (by decide), decide_false,
    Bool.false_or, Bool.false_and, Bool.or_self, Bool.false_eq_true, if_false, ite_self]

theorem foldl_step_of_le {bytes : List UInt8} (beyond : ∀ b ∈ bytes, 0x80 ≤ b.toNat) (scan : Scan) :
    bytes.foldl Scan.step scan =
      if scan.comment then scan else { scan with kept := bytes.reverse ++ scan.kept } := by
  induction bytes generalizing scan with
  | nil => simp
  | cons b bytes ih =>
    obtain ⟨first, others⟩ := List.forall_mem_cons.1 beyond
    rw [List.foldl_cons, step_of_le first, ih others]
    by_cases comment : scan.comment = true
    · simp [comment]
    · simp [comment]

/-- **Stripping a character is reading its bytes.** -/
theorem foldl_step_ofScan (c : Char) (scan : Line.Scan) :
    (String.utf8EncodeChar c).foldl Scan.step (ofScan scan) = ofScan (scan.step c) := by
  by_cases ascii : c.toNat < 0x80
  · rw [Utf8.utf8EncodeChar_of_lt ascii]
    exact step_ofScan ascii scan
  · have beyond := Nat.le_of_not_lt ascii
    have other (e : Char) (small : e.toNat < 0x80) : c ≠ e := by
      rintro rfl
      exact ascii small
    have step : scan.step c =
        if scan.comment then scan else { scan with kept := c :: scan.kept } := by
      simp only [Line.Scan.step, other '\r' (by decide), other '"' (by decide), other ' ' (by decide),
        other '\t' (by decide), other ';' (by decide), other '/' (by decide), decide_false,
        Bool.false_or, Bool.false_and, Bool.or_self, Bool.false_eq_true, if_false, ite_self]
    rw [foldl_step_of_le fun b member => Utf8.le_of_mem_utf8EncodeChar beyond member, step]
    have comment : (ofScan scan).comment = scan.comment := rfl
    rw [comment]
    split
    · rfl
    · rw [ofScan_cons]
      rfl

/-- Bytes without a newline belong to the line. -/
theorem readLine_append {bytes : List UInt8} (single : (0x0A : UInt8) ∉ bytes) (scan : Scan)
    (rest : List UInt8) :
    readLine scan (bytes ++ rest) = readLine (bytes.foldl Scan.step scan) rest := by
  induction bytes generalizing scan with
  | nil => rfl
  | cons b bytes ih =>
    obtain ⟨other, single⟩ := not_or.1 (mt List.mem_cons.2 single)
    rw [List.cons_append, readLine, if_neg (Ne.symm other), ih single, List.foldl_cons]

/-- **Reading a line from bytes** gives the text that stripping leaves of the piece up to the newline, and
the bytes of what is behind it. -/
theorem readLine_encode (source : Text) (scan : Line.Scan) :
    readLine (ofScan scan) (Utf8.encode source) =
      (((source.takeWhile (· ≠ '\n')).foldl Line.Scan.step scan).kept.reverse,
        Utf8.encode (source.drop ((source.takeWhile (· ≠ '\n')).length + 1))) := by
  have decoded (scan : Line.Scan) :
      Utf8.decodeLossy (ofScan scan).kept.reverse = scan.kept.reverse := by
    rw [ofScan, List.reverse_reverse, Utf8.decodeLossy_encode]
  induction source generalizing scan with
  | nil =>
    have ends : readLine (ofScan scan) [] = (Utf8.decodeLossy (ofScan scan).kept.reverse, []) := rfl
    exact ends.trans (by rw [decoded]; rfl)
  | cons c rest ih =>
    rw [Utf8.encode_cons]
    by_cases newline : c = '\n'
    · subst newline
      have first : String.utf8EncodeChar '\n' = [0x0A] := rfl
      rw [first, List.singleton_append, readLine, if_pos rfl, decoded]
      rfl
    · have single : (0x0A : UInt8) ∉ String.utf8EncodeChar c := fun member =>
        newline ((Utf8.mem_utf8EncodeChar_iff (show '\n'.toNat < 0x80 by decide)).1 member)
      have goesOn : (c :: rest).takeWhile (· ≠ '\n') = c :: rest.takeWhile (· ≠ '\n') := by
        simp [newline]
      rw [readLine_append single, foldl_step_ofScan, ih, goesOn]
      rfl

/-- **The lines that are read from the bytes of a source** are its pieces, stripped, with the numbers
behind those of the lines before. -/
theorem readLines_encode (source : Text) (before : Nat) :
    readLines before (Utf8.encode source) =
      (Line.pieces source).mapIdx fun i piece => ⟨before + i + 1, Line.strip piece⟩ := by
  -- a line takes its newline with it, so that what is behind it is shorter
  induction length : source.length using Nat.strongRecOn generalizing source before with
  | ind n ih =>
    by_cases empty : source = []
    · subst empty
      exact readLines_nil before
    · have shorter : (source.drop ((source.takeWhile (· ≠ '\n')).length + 1)).length < n := by
        have some_ := List.length_pos_iff.2 empty
        rw [List.length_drop]
        omega
      have numbers (i : Nat) : before + 1 + i + 1 = before + (i + 1) + 1 := by omega
      have first := readLine_encode source {}
      rw [readLines_of_ne_nil before (Utf8.encode_ne_nil empty), Line.pieces_eq_cons empty,
        List.mapIdx_cons]
      have start : ofScan {} = {} := rfl
      rw [start] at first
      rw [first, ih _ shorter _ _ rfl]
      simp only [numbers]
      rfl

end Bytes

/-! ## Lines of a source -/

namespace Line

/-- Pieces with a newline behind each, and one that may have none. -/
theorem intercalate_concat (front : List Text) (last : Text) :
    ['\n'].intercalate (front ++ [last]) = front.flatMap (· ++ ['\n']) ++ last := by
  induction front with
  | nil => simp
  | cons piece front ih =>
    have some_ : front ++ [last] ≠ [] := by simp
    rw [List.cons_append, List.intercalate_cons_of_ne_nil some_, ih, List.flatMap_cons]
    simp only [List.append_assoc]

/-- **A source is made of pieces that end in a newline** and a rest without one, which is a piece too
unless it is empty. -/
theorem exists_pieces (source : Text) :
    ∃ (terminated : List Text) (rest : Text),
      source = terminated.flatMap (· ++ ['\n']) ++ rest ∧
        (∀ piece ∈ terminated, '\n' ∉ piece) ∧ '\n' ∉ rest ∧
          pieces source = if rest = [] then terminated else terminated ++ [rest] := by
  obtain ⟨front, last, shape⟩ : ∃ front last, source.splitOn '\n' = front ++ [last] :=
    ⟨_, _, (List.dropLast_concat_getLast (List.splitOn_ne_nil '\n' source)).symm⟩
  have single (piece : Text) (member : piece ∈ front ++ [last]) : '\n' ∉ piece := by
    rw [← shape] at member
    exact Text.not_mem_of_mem_splitOn member
  refine ⟨front, last, ?_, ?_, ?_, ?_⟩
  · rw [← intercalate_concat, ← shape, List.intercalate_splitOn]
  · intro piece member
    exact single piece (List.mem_append_left _ member)
  · exact single last (by simp)
  · simp [pieces, shape]

/-- **The lines of a source.** There is one for each piece that a newline ends, and one for a rest that is
not empty, numbered in order from one. Each is its piece without the carriage returns, then without the
separators outside quotes, then cut in front of the first `//` outside quotes. One pass over the bytes of
the source finds the same. -/
theorem ofSource_eq_stages (source : Text) :
    ∃ (terminated : List Text) (rest : Text),
      source = terminated.flatMap (· ++ ['\n']) ++ rest ∧
        (∀ piece ∈ terminated, '\n' ∉ piece) ∧ '\n' ∉ rest ∧
          ofSource source =
            (if rest = [] then terminated else terminated ++ [rest]).mapIdx (fun i piece =>
              ⟨i + 1, beforeComment (withoutSeparators false (piece.filter (· ≠ '\r')))⟩) ∧
            Bytes.readLines 0 (Utf8.encode source) = ofSource source := by
  obtain ⟨terminated, rest, whole, single, single', shape⟩ := exists_pieces source
  refine ⟨terminated, rest, whole, single, single', ?_, ?_⟩
  · simp only [ofSource, shape, strip_eq]
  · rw [Bytes.readLines_encode]
    simp only [ofSource, Nat.zero_add]

end Line

end StageScript
