/-
  File:      Ahasd/TraceRoundTrip.lean
  Subject:   WRITING AN ACCEPTANCE TRACE AND READING IT BACK.

  The cells of a row are numbers, so neither the writer's quotes nor the readers' trimming comes
  into play; comments are passed over by both readers.

  * `loadTraceCsv_write`, `loadAcceptanceTrace_write`: what each reader makes of a written trace;
  * `TraceLine.Fits.parse`: the entry of a row that fits;
  * **`trace_round_trip`**: what is read back without loss.
-/
import Ahasd.AcceptanceTrace

namespace Ahasd

open Text

namespace AcceptanceTrace

/-! ## 1. Numbers as the readers see them -/

/-- A field with nothing that `csv` or a reader of cells treats specially. -/
structure Plain (f : List Char) : Prop where
  nonempty : f ≠ []
  numerals : ∀ c ∈ f, c ∈ Text.numerals

theorem intText_nat (n : Nat) : intText (n : Int) = Nat.toDigits 10 n := rfl

theorem intText_plain (n : Int) : Plain (intText n) := by
  cases n with
  | ofNat n => exact ⟨Nat.toDigits_ne_nil, toDigits_numerals n⟩
  | negSucc n =>
      refine ⟨List.cons_ne_nil _ _, fun c hc => ?_⟩
      rcases List.mem_cons.mp hc with rfl | hc
      · decide
      · exact toDigits_numerals (n + 1) c hc

theorem fixed_plain (x : ℚ) : Plain (fixed 4 x) := ⟨fixed_ne_nil x, fixed_numerals x⟩

theorem TraceLine.cells_plain (requestId : Option Int) (r : TraceLine) :
    ∀ f ∈ r.cells requestId, Plain f := by
  intro f hf
  rcases List.mem_append.mp hf with hf | hf
  · obtain ⟨id, _, rfl⟩ := Option.map_eq_some_iff.mp (Option.mem_toList.mp hf)
    exact intText_plain id
  · simp only [List.mem_cons, List.not_mem_nil, or_false] at hf
    rcases hf with rfl | rfl | rfl | rfl
    · exact intText_plain _
    · exact intText_plain _
    · exact fixed_plain _
    · exact intText_plain _

section Characters

variable {l : List Char}

/-- Characters that are not dropped are kept. -/
theorem dropWhile_none {p : Char → Bool} (h : ∀ c ∈ l, p c = false) : l.dropWhile p = l := by
  cases l with
  | nil => rfl
  | cons c l => exact List.dropWhile_cons_of_neg (by simp [h c List.mem_cons_self])

theorem trim_clean (h : ∀ c ∈ l, isBlank c = false) : trim l = l := by
  unfold trim
  rw [dropWhile_none h, dropWhile_none fun c hc => h c (List.mem_reverse.mp hc),
    List.reverse_reverse]

/-- A carriage return at the end of a line is cut off. -/
theorem trim_cr (h : ∀ c ∈ l, isBlank c = false) (hne : l ≠ []) : trim (l ++ ['\r']) = l := by
  unfold trim
  cases l with
  | nil => exact absurd rfl hne
  | cons c l =>
      have hc := h c List.mem_cons_self
      rw [List.cons_append, List.dropWhile_cons_of_neg (by simp [hc]), ← List.cons_append,
        List.reverse_append]
      show (List.dropWhile isBlank (c :: l).reverse).reverse = c :: l
      rw [dropWhile_none fun x hx => h x (List.mem_reverse.mp hx), List.reverse_reverse]

/-- A comment stays one. -/
theorem trim_comment (l : List Char) : (trim ('#' :: l)).head? = some '#' := by
  unfold trim
  rw [List.dropWhile_cons_of_neg (by decide), List.reverse_cons, List.dropWhile_append]
  split
  · rfl
  · rw [List.reverse_append]
    rfl

/-- What is checked of each numeral is true of all of them. -/
theorem of_numerals {p : Char → Prop} [DecidablePred p]
    (h : (Text.numerals.all fun c => decide (p c)) = true) : ∀ c ∈ Text.numerals, p c :=
  fun c hc => of_decide_eq_true (List.all_eq_true.mp h c hc)

theorem blank_of_numerals : ∀ c ∈ Text.numerals, isBlank c = false := of_numerals (by decide)

theorem space_of_numerals : ∀ c ∈ Text.numerals, isSpace c = false := of_numerals (by decide)

theorem whitespace_of_numerals : ∀ c ∈ Text.numerals, isWhitespace c = false :=
  of_numerals (by decide)

theorem csv_of_numerals : ∀ c ∈ Text.numerals, c ≠ ',' ∧ c ≠ '"' ∧ c ≠ '\r' ∧ c ≠ '\n' :=
  of_numerals (by decide)

theorem clean_of_numerals : ∀ c ∈ Text.numerals, c ≠ '\r' ∧ c ≠ '\n' ∧ isBlank c = false ∧
    isWhitespace c = false ∧ c ≠ '#' :=
  of_numerals (by decide)

theorem strip_clean (h : ∀ c ∈ l, c ∈ Text.numerals) : strip l = l := by
  have hclean := fun c hc => whitespace_of_numerals c (h c hc)
  unfold strip
  rw [dropWhile_none hclean, dropWhile_none fun c hc => hclean c (List.mem_reverse.mp hc),
    List.reverse_reverse]

theorem dropUnderscores_clean (h : ∀ c ∈ l, c ∈ Text.numerals) (b : Bool) :
    dropUnderscores b l = some l := by
  induction l generalizing b with
  | nil => rfl
  | cons c l ih =>
      have hc : c ≠ '_' := by
        rintro rfl
        exact absurd (h _ List.mem_cons_self) (by decide)
      rw [dropUnderscores, if_neg hc, ih fun x hx => h x (List.mem_cons_of_mem c hx)]
      rfl

theorem stoul_toDigits (n : Nat) :
    stoul (Nat.toDigits 10 n) = if n < 2 ^ 64 then some n else none := by
  have hdigits := isDigit_toDigits n
  have hsign := scanSign_digits hdigits Nat.toDigits_ne_nil []
  rw [List.append_nil] at hsign
  have htake : (Nat.toDigits 10 n ++ []).takeWhile Char.isDigit = _ :=
    List.takeWhile_append_of_pos hdigits
  rw [List.append_nil, List.takeWhile_nil, List.append_nil] at htake
  unfold stoul
  rw [dropWhile_none fun c hc => space_of_numerals c (toDigits_numerals n c hc), hsign]
  dsimp only
  rw [htake, number_toDigits]
  by_cases hn : n < 2 ^ 64
  · rw [if_pos hn, if_neg (by simpa [Nat.toDigits_ne_nil] using hn)]
    rfl
  · rw [if_neg hn, if_pos (.inr (Nat.not_lt.mp hn))]

theorem stof_fixed {x : ℚ} (hx : FloatFits (roundTo 4 x)) :
    stof (fixed 4 x) = some (roundTo 4 x) := by
  unfold stof
  rw [dropWhile_none fun c hc => space_of_numerals c (fixed_numerals x c hc),
    scanDecimal_fixed (by decide) x, Option.bind_some, if_pos hx]

theorem toInt_toDigits (n : Nat) : toInt (Nat.toDigits 10 n) = some (n : Int) := by
  have hdigits := isDigit_toDigits n
  have hsign := scanSign_digits hdigits Nat.toDigits_ne_nil []
  rw [List.append_nil] at hsign
  unfold toInt
  rw [strip_clean (toDigits_numerals n), dropUnderscores_clean (toDigits_numerals n),
    Option.bind_some, hsign]
  dsimp only
  have hno : ¬ (Nat.toDigits 10 n = [] ∨
      (Nat.toDigits 10 n).any (fun c => !c.isDigit) = true) := by
    rintro (h | h)
    · exact Nat.toDigits_ne_nil h
    · obtain ⟨c, hc, hno⟩ := List.any_eq_true.mp h
      rw [hdigits c hc] at hno
      cases hno
  rw [if_neg hno, number_toDigits]
  rfl

theorem toFloat_fixed (x : ℚ) : toFloat (fixed 4 x) = some (roundTo 4 x) := by
  unfold toFloat
  rw [strip_clean (fixed_numerals x), dropUnderscores_clean (fixed_numerals x), Option.bind_some,
    scanDecimal_fixed (by decide) x]
  rfl

end Characters

/-! ## 2. The lines of a written trace -/

/-- A row's line, without its end. -/
def TraceLine.line (requestId : Option Int) (r : TraceLine) : List Char :=
  [','].intercalate (r.cells requestId)

/-- The header's line, without its end. -/
def headerLine (requestId : Option Int) : List Char := [','].intercalate (header requestId)

/-- A field without special characters is written as it is. -/
theorem csvField_plain {f : List Char} (h : Plain f) : csvField f = f := by
  unfold csvField
  refine if_neg fun hany => ?_
  obtain ⟨c, hc, hspecial⟩ := List.any_eq_true.mp hany
  obtain ⟨h₁, h₂, h₃, h₄⟩ := csv_of_numerals c (h.numerals c hc)
  simp [h₁, h₂, h₃, h₄] at hspecial

theorem csvRow_cells (requestId : Option Int) (r : TraceLine) :
    csvRow (r.cells requestId) = r.line requestId ++ ['\r', '\n'] := by
  have hfields : (r.cells requestId).map csvField = r.cells requestId := by
    conv_rhs => rw [← List.map_id (r.cells requestId)]
    exact List.map_congr_left fun f hf => csvField_plain (r.cells_plain requestId f hf)
  rw [csvRow, hfields]
  rfl

theorem csvRow_header (requestId : Option Int) :
    csvRow (header requestId) = headerLine requestId ++ ['\r', '\n'] := by
  cases requestId <;> rfl

theorem TraceLine.mem_line {requestId : Option Int} {r : TraceLine} {c : Char}
    (h : c ∈ r.line requestId) : c = ',' ∨ c ∈ Text.numerals := by
  rcases mem_intercalate h with h | ⟨f, hf, hc⟩
  · exact .inl h
  · exact .inr ((r.cells_plain requestId f hf).numerals c hc)

theorem TraceLine.line_clean (requestId : Option Int) (r : TraceLine) :
    ∀ c ∈ r.line requestId, c ≠ '\r' ∧ c ≠ '\n' ∧ isBlank c = false ∧ isWhitespace c = false ∧
      c ≠ '#' := by
  intro c hc
  rcases TraceLine.mem_line hc with rfl | hc
  · decide
  · exact clean_of_numerals c hc

theorem TraceLine.line_ne_nil (requestId : Option Int) (r : TraceLine) :
    r.line requestId ≠ [] := by
  unfold TraceLine.line TraceLine.cells
  cases requestId with
  | none =>
      cases h : intText (r.round : Int) with
      | nil => exact absurd h (intText_plain _).nonempty
      | cons c cs => simp [List.intercalate]
  | some id =>
      cases h : intText id with
      | nil => exact absurd h (intText_plain _).nonempty
      | cons c cs => simp [List.intercalate]

/-- Text within one line. -/
def OneLine (l : List Char) : Prop := ∀ c ∈ l, c ≠ '\r' ∧ c ≠ '\n'

instance (l : List Char) : Decidable (OneLine l) := List.decidableBAll _ l

theorem OneLine.append {l m : List Char} (hl : OneLine l) (hm : OneLine m) : OneLine (l ++ m) :=
  fun c hc => (List.mem_append.mp hc).elim (hl c) (hm c)

theorem Plain.oneLine {f : List Char} (h : Plain f) : OneLine f :=
  fun c hc => (csv_of_numerals c (h.numerals c hc)).2.2

/-- The comments of a trace are comments, and a line each when the model pair is in one. -/
theorem Provenance.mem_lines {p : Provenance} (hp : OneLine p.modelPair) :
    ∀ l ∈ p.lines, (∃ t, l = '#' :: t) ∧ OneLine l := by
  have hint : ∀ n : Int, OneLine (intText n) := fun n => (intText_plain n).oneLine
  have hfixed : ∀ x : ℚ, OneLine (fixed 3 x) := fun x =>
    Plain.oneLine ⟨fixed_ne_nil x, fixed_numerals x⟩
  have hkey : OneLine p.algorithm.key := by
    cases p.algorithm <;> decide
  intro l hl
  simp only [lines, List.mem_cons, List.not_mem_nil, or_false] at hl
  rcases hl with rfl | rfl | rfl | rfl
  · exact ⟨⟨_, rfl⟩, by decide⟩
  · exact ⟨⟨_, rfl⟩, (((by decide : OneLine _).append hp).append (by decide)).append hkey⟩
  · exact ⟨⟨_, rfl⟩, (((((((by decide : OneLine _).append (hfixed _)).append (by decide)).append
      (hfixed _)).append (by decide)).append (hfixed _)).append (by decide)).append (hfixed _)⟩
  · exact ⟨⟨_, rfl⟩, (((((by decide : OneLine _).append (hint _)).append (by decide)).append
      (hint _)).append (by decide)).append (hint _)⟩

/-! ## 3. What the simulator reads -/

/-- The lines of a trace, without the line feeds. -/
theorem writeTrace_lines (provenance : Option Provenance) (requestId : Option Int)
    (rows : List TraceLine) : writeTrace provenance requestId rows =
      (provenance.toList.flatMap Provenance.lines ++ (headerLine requestId ++ ['\r']) ::
        rows.map fun r => r.line requestId ++ ['\r']).flatMap (· ++ ['\n']) := by
  unfold writeTrace
  rw [List.flatMap_append, List.flatMap_assoc, csvRow_header, List.flatMap_cons, List.flatMap_map,
    List.append_assoc, List.append_assoc]
  simp only [csvRow_cells, List.append_assoc, List.singleton_append]

theorem headerLine_oneLine (requestId : Option Int) : OneLine (headerLine requestId) := by
  cases requestId with
  | none => decide
  | some id =>
      show OneLine (headerLine (some 0))
      decide

theorem loadLoop_comments {ls : List (List Char)} (h : ∀ l ∈ ls, ∃ t, l = '#' :: t) (b : Bool)
    (rest : List (List Char)) (rows : List (TraceKey × TraceRow)) :
    loadLoop b (ls ++ rest) rows = loadLoop b rest rows := by
  induction ls with
  | nil => rfl
  | cons l ls ih =>
      obtain ⟨t, rfl⟩ := h l List.mem_cons_self
      rw [List.cons_append, loadLoop, if_pos (.inr (trim_comment t))]
      exact ih fun x hx => h x (List.mem_cons_of_mem _ hx)

theorem loadLoop_header (requestId : Option Int) (rest : List (List Char))
    (rows : List (TraceKey × TraceRow)) :
    loadLoop false ((headerLine requestId ++ ['\r']) :: rest) rows = loadLoop true rest rows := by
  cases requestId with
  | none => rw [loadLoop, if_neg (by decide), if_pos (by decide)]
  | some id =>
      show loadLoop false ((headerLine (some 0) ++ ['\r']) :: rest) rows = _
      rw [loadLoop, if_neg (by decide), if_pos (by decide)]

theorem loadLoop_rows (requestId : Option Int) (ls : List TraceLine)
    (rows : List (TraceKey × TraceRow)) :
    loadLoop true (ls.map fun r => r.line requestId ++ ['\r']) rows =
      (ls.filterMap fun r => parseTraceLine (r.line requestId)).reverse ++ rows := by
  induction ls generalizing rows with
  | nil => rfl
  | cons r ls ih =>
      have hclean := r.line_clean requestId
      have htrim : trim (r.line requestId ++ ['\r']) = r.line requestId :=
        trim_cr (fun c hc => (hclean c hc).2.2.1) (r.line_ne_nil requestId)
      have hkeep : ¬ (r.line requestId = [] ∨ (r.line requestId).head? = some '#') := by
        rintro (h | h)
        · exact r.line_ne_nil requestId h
        · exact (hclean '#' (List.mem_of_mem_head? h)).2.2.2.2 rfl
      rw [List.map_cons, loadLoop, htrim, if_neg hkeep, if_neg (by simp), List.filterMap_cons]
      cases parseTraceLine (r.line requestId) with
      | none => exact ih rows
      | some row => simpa using ih (row :: rows)

/-- **What the simulator reads of a written trace**: the rows it can parse. -/
theorem loadTraceCsv_write {provenance : Option Provenance}
    (hp : ∀ p ∈ provenance, OneLine p.modelPair) (requestId : Option Int) (rows : List TraceLine) :
    loadTraceCsv (writeTrace provenance requestId rows) =
      (rows.filterMap fun r => parseTraceLine (r.line requestId)).reverse := by
  have hcomments : ∀ l ∈ provenance.toList.flatMap Provenance.lines,
      (∃ t, l = '#' :: t) ∧ OneLine l := by
    intro l hl
    obtain ⟨p, hmem, hl⟩ := List.mem_flatMap.mp hl
    exact Provenance.mem_lines (hp p (Option.mem_toList.mp hmem)) l hl
  have hheader := headerLine_oneLine requestId
  rw [loadTraceCsv, writeTrace_lines, pieces_flatMap, loadLoop_comments fun l hl =>
    (hcomments l hl).1, loadLoop_header, loadLoop_rows, List.append_nil]
  intro l hl hbreak
  rcases List.mem_append.mp hl with hl | hl
  · exact ((hcomments l hl).2 _ hbreak).2 rfl
  · rcases List.mem_cons.mp hl with rfl | hl
    · rcases List.mem_append.mp hbreak with hbreak | hbreak
      · exact (hheader _ hbreak).2 rfl
      · exact absurd hbreak (by decide)
    · obtain ⟨r, _, rfl⟩ := List.mem_map.mp hl
      rcases List.mem_append.mp hbreak with hbreak | hbreak
      · exact (TraceLine.line_clean _ _ _ hbreak).2.1 rfl
      · exact absurd hbreak (by decide)

/-- The cells come back from a line. -/
theorem TraceLine.pieces_line (requestId : Option Int) (r : TraceLine) :
    (pieces ',' (r.line requestId)).map trim = r.cells requestId := by
  have hplain := r.cells_plain requestId
  rw [TraceLine.line, pieces_intercalate fun f hf => ⟨fun hc =>
    (csv_of_numerals _ ((hplain f hf).numerals _ hc)).1 rfl, (hplain f hf).nonempty⟩]
  conv_rhs => rw [← List.map_id (r.cells requestId)]
  exact List.map_congr_left fun f hf => trim_clean fun c hc =>
    blank_of_numerals c ((hplain f hf).numerals c hc)

/-- The numbers of a row fit the fields of `TraceRow` and of its key. -/
structure TraceLine.Fits (r : TraceLine) : Prop where
  round : r.round < 2 ^ 32
  draftLength : r.draftLength < 2 ^ 32
  acceptedLength : r.acceptedLength < 2 ^ 32
  avgEntropy : |roundTo 4 r.avgEntropy| < floatOverflow

/-- A number of four decimals is not too small for a float. -/
theorem floatFits_roundTo {x : ℚ} (h : |roundTo 4 x| < floatOverflow) :
    FloatFits (roundTo 4 x) := by
  refine ⟨h, ?_⟩
  have habs : |roundTo 4 x| = units 4 x / 10 ^ 4 := abs_roundTo x
  rcases Nat.eq_zero_or_pos (units 4 x) with hzero | hpos
  · left
    rw [hzero] at habs
    exact abs_eq_zero.mp (by simpa using habs)
  · right
    rw [habs]
    have hone : (1 : ℚ) ≤ units 4 x := by exact_mod_cast hpos
    unfold floatTiny
    rw [le_div_iff₀ (by positivity)]
    exact le_trans (by norm_num) hone

theorem toUInt32_of_lt {n : Nat} (h : n < 2 ^ 32) : toUInt32 n = n := Nat.mod_eq_of_lt h

/-- **The entry of a row that fits.** -/
theorem TraceLine.Fits.parse {r : TraceLine} (h : r.Fits) {requestId : Option Int}
    (hid : ∀ id ∈ requestId, 0 ≤ id ∧ id < 2 ^ 32) :
    parseTraceLine (r.line requestId) = some (⟨(requestId.getD 0).toNat, r.round⟩,
      ⟨r.draftLength, roundTo 4 r.avgEntropy, r.acceptedLength⟩) := by
  have hnat : ∀ {n : Nat}, n < 2 ^ 32 → stoul (intText (n : Int)) = some n := by
    intro n hn
    rw [intText_nat, stoul_toDigits, if_pos (by omega)]
  have hentropy := stof_fixed (floatFits_roundTo h.avgEntropy)
  have hround := toUInt32_of_lt h.round
  have hdraft := toUInt32_of_lt h.draftLength
  have haccepted := toUInt32_of_lt h.acceptedLength
  unfold parseTraceLine
  rw [r.pieces_line requestId]
  cases requestId with
  | none =>
      rw [show r.cells none = [intText r.round, intText r.draftLength, fixed 4 r.avgEntropy,
        intText r.acceptedLength] from rfl]
      dsimp only
      rw [hnat h.round, hnat h.draftLength, hentropy, hnat h.acceptedLength]
      simp [hround, hdraft, haccepted]
  | some id =>
      obtain ⟨hlow, hhigh⟩ := hid id rfl
      obtain ⟨n, rfl⟩ := Int.eq_ofNat_of_zero_le hlow
      have hn : n < 2 ^ 32 := by omega
      rw [show r.cells (some (n : Int)) = [intText n, intText r.round, intText r.draftLength,
        fixed 4 r.avgEntropy, intText r.acceptedLength] from rfl]
      dsimp only
      rw [hnat hn, hnat h.round, hnat h.draftLength, hentropy, hnat h.acceptedLength]
      simp [toUInt32_of_lt hn, hround, hdraft, haccepted]

/-- The round of the entry a row becomes, whatever its numbers are. -/
theorem TraceLine.parse_round {r : TraceLine} {requestId : Option Int} {key : TraceKey}
    {row : TraceRow} (h : parseTraceLine (r.line requestId) = some (key, row)) :
    key.specRound = toUInt32 r.round := by
  have hround : ∀ {n : Nat}, stoul (intText r.round) = some n → n = r.round := by
    intro n hn
    rw [intText_nat, stoul_toDigits] at hn
    obtain ⟨_, heq⟩ := Option.ite_none_right_eq_some.mp hn
    exact (Option.some.inj heq).symm
  unfold parseTraceLine at h
  rw [r.pieces_line requestId] at h
  cases requestId with
  | none =>
      rw [show r.cells none = [intText r.round, intText r.draftLength, fixed 4 r.avgEntropy,
        intText r.acceptedLength] from rfl] at h
      obtain ⟨n, hn, h⟩ := Option.bind_eq_some_iff.mp h
      obtain ⟨_, _, h⟩ := Option.bind_eq_some_iff.mp h
      obtain ⟨_, _, h⟩ := Option.bind_eq_some_iff.mp h
      obtain ⟨_, _, h⟩ := Option.bind_eq_some_iff.mp h
      cases h
      rw [hround hn]
  | some id =>
      rw [show r.cells (some id) = [intText id, intText r.round, intText r.draftLength,
        fixed 4 r.avgEntropy, intText r.acceptedLength] from rfl] at h
      obtain ⟨_, _, h⟩ := Option.bind_eq_some_iff.mp h
      obtain ⟨n, hn, h⟩ := Option.bind_eq_some_iff.mp h
      obtain ⟨_, _, h⟩ := Option.bind_eq_some_iff.mp h
      obtain ⟨_, _, h⟩ := Option.bind_eq_some_iff.mp h
      obtain ⟨_, _, h⟩ := Option.bind_eq_some_iff.mp h
      cases h
      rw [hround hn]

/-! ## 4. What the replay script reads -/

theorem fileLines_append {l : List Char} (h : OneLine l) (rest : List Char) :
    fileLines (l ++ '\n' :: rest) = (l ++ ['\n']) :: fileLines rest ∧
      fileLines (l ++ '\r' :: '\n' :: rest) = (l ++ ['\r', '\n']) :: fileLines rest := by
  induction l with
  | nil =>
      refine ⟨?_, rfl⟩
      rw [List.nil_append, fileLines]
      · simp
      · simp
  | cons c l ih =>
      obtain ⟨hc, hc'⟩ := h c List.mem_cons_self
      obtain ⟨ih₁, ih₂⟩ := ih fun x hx => h x (List.mem_cons_of_mem c hx)
      constructor
      · rw [List.cons_append, fileLines, if_neg (by simp [hc, hc']), ih₁]
        · rfl
        · rintro cs rfl
          exact absurd rfl hc
      · rw [List.cons_append, fileLines, if_neg (by simp [hc, hc']), ih₂]
        · rfl
        · rintro cs rfl
          exact absurd rfl hc

theorem fileLines_comments {ls : List (List Char)} (h : ∀ l ∈ ls, OneLine l) (rest : List Char) :
    fileLines (ls.flatMap (· ++ ['\n']) ++ rest) = ls.map (· ++ ['\n']) ++ fileLines rest := by
  induction ls with
  | nil => rfl
  | cons l ls ih =>
      have hrest := ih fun x hx => h x (List.mem_cons_of_mem l hx)
      rw [List.flatMap_cons, List.append_assoc, List.append_assoc, List.singleton_append,
        (fileLines_append (h l List.mem_cons_self) _).1, hrest]
      rfl

theorem fileLines_records {ls : List (List Char)} (h : ∀ l ∈ ls, OneLine l) :
    fileLines (ls.flatMap (· ++ ['\r', '\n'])) = ls.map (· ++ ['\r', '\n']) := by
  induction ls with
  | nil => rfl
  | cons l ls ih =>
      have hrest := ih fun x hx => h x (List.mem_cons_of_mem l hx)
      rw [List.flatMap_cons, List.append_assoc]
      exact ((fileLines_append (h l List.mem_cons_self) _).2).trans (congrArg _ hrest)

/-- What a field may have so that `csv.reader` needs no quotes. -/
def Unquoted (f : List Char) : Prop := ∀ c ∈ f, c ≠ ',' ∧ c ≠ '"' ∧ c ≠ '\r' ∧ c ≠ '\n'

instance (f : List Char) : Decidable (Unquoted f) := List.decidableBAll _ f

namespace CsvState

/-- Inside a field its characters are added. -/
theorem foldlM_inField (acc : List (List Char)) (rest : List (Option Char)) :
    ∀ {f : List Char}, Unquoted f → ∀ g : List Char,
      (f.map some ++ rest).foldlM char ⟨.inField, g, acc⟩ =
        rest.foldlM char ⟨.inField, g ++ f, acc⟩
  | [], _, g => by rw [List.append_nil]; rfl
  | c :: f, h, g => by
      obtain ⟨h₁, _, h₃, h₄⟩ := h c List.mem_cons_self
      have hrest := foldlM_inField acc rest
        (fun x hx => h x (List.mem_cons_of_mem c hx)) (g ++ [c])
      have hchar : char ⟨.inField, g, acc⟩ (some c) = some ⟨.inField, g ++ [c], acc⟩ := by
        simp [char, addChar, h₁, h₃, h₄]
      rw [List.map_cons, List.cons_append, List.foldlM_cons, hchar]
      simpa using hrest

/-- A field from its first character on. -/
theorem foldlM_field {m : CsvMode} (hm : m = .startRecord ∨ m = .startField)
    {acc : List (List Char)} (rest : List (Option Char)) {f : List Char} (h : Unquoted f)
    (hne : f ≠ []) :
    (f.map some ++ rest).foldlM char ⟨m, [], acc⟩ = rest.foldlM char ⟨.inField, f, acc⟩ := by
  cases f with
  | nil => exact absurd rfl hne
  | cons c f =>
      obtain ⟨h₁, h₂, h₃, h₄⟩ := h c List.mem_cons_self
      have hchar : char ⟨m, [], acc⟩ (some c) = some ⟨.inField, [c], acc⟩ := by
        rcases hm with rfl | rfl <;> simp [char, startField, addChar, h₁, h₂, h₃, h₄]
      rw [List.map_cons, List.cons_append, List.foldlM_cons, hchar]
      exact foldlM_inField acc rest (fun x hx => h x (List.mem_cons_of_mem c hx)) [c]

/-- The fields of a line, up to its end. -/
theorem foldlM_fields : ∀ {fs : List (List Char)}, (∀ f ∈ fs, Unquoted f ∧ f ≠ []) → fs ≠ [] →
    ∀ {m : CsvMode}, m = .startRecord ∨ m = .startField → ∀ acc : List (List Char),
      (([','].intercalate fs ++ ['\r', '\n']).map some ++ [none]).foldlM char ⟨m, [], acc⟩ =
        some ⟨.startRecord, [], acc ++ fs⟩
  | [], _, hne, _, _, _ => absurd rfl hne
  | [f], h, _, m, hm, acc => by
      obtain ⟨hf, hfne⟩ := h f List.mem_cons_self
      rw [show [','].intercalate [f] = f by simp [List.intercalate], List.map_append,
        List.append_assoc, foldlM_field hm _ hf hfne]
      rfl
  | f :: g :: fs, h, _, m, hm, acc => by
      obtain ⟨hf, hfne⟩ := h f List.mem_cons_self
      have hrest := foldlM_fields (fun x hx => h x (List.mem_cons_of_mem f hx))
        (List.cons_ne_nil g fs) (m := .startField) (.inr rfl) (acc ++ [f])
      have hjoin : [','].intercalate (f :: g :: fs) ++ ['\r', '\n'] =
          f ++ ',' :: ([','].intercalate (g :: fs) ++ ['\r', '\n']) := by
        simp [List.intercalate]
      rw [hjoin, List.map_append, List.append_assoc, foldlM_field hm _ hf hfne, List.map_cons,
        List.cons_append, List.foldlM_cons]
      show List.foldlM char ⟨.startField, [], acc ++ [f]⟩ _ = _
      rw [hrest, List.append_assoc]
      rfl

end CsvState

/-- **A line of fields that need no quotes is a record.** -/
theorem csvRecords_line {fs : List (List Char)} (h : ∀ f ∈ fs, Unquoted f ∧ f ≠ [])
    (hne : fs ≠ []) (ls : List (List Char)) :
    csvRecords {} (([','].intercalate fs ++ ['\r', '\n']) :: ls) =
      (csvRecords {} ls).map (fs :: ·) := by
  have hline : ({} : CsvState).line ([','].intercalate fs ++ ['\r', '\n']) =
      some ⟨.startRecord, [], fs⟩ := CsvState.foldlM_fields h hne (.inl rfl) []
  rw [csvRecords, hline]
  cases csvRecords {} ls <;> rfl

/-- The row as the script keeps it, with the four decimals that were written. -/
def TraceLine.replayed (r : TraceLine) : AcceptRow where
  round := r.round
  draftLength := r.draftLength
  acceptedLength := r.acceptedLength
  avgEntropy := roundTo 4 r.avgEntropy

theorem acceptRow_cells (requestId : Option Int) (r : TraceLine) (n : Nat) :
    acceptRow (header requestId) (r.cells requestId) n = some r.replayed := by
  have hnat : ∀ n : Nat, toInt (intText (n : Int)) = some (n : Int) := toInt_toDigits
  have hcolumns : column (header requestId) (r.cells requestId) "round".toList =
        some (some (intText r.round)) ∧
      column (header requestId) (r.cells requestId) "draft_length".toList =
        some (some (intText r.draftLength)) ∧
      column (header requestId) (r.cells requestId) "accepted_length".toList =
        some (some (intText r.acceptedLength)) ∧
      column (header requestId) (r.cells requestId) "avg_entropy".toList =
        some (some (fixed 4 r.avgEntropy)) := by
    cases requestId <;> exact ⟨rfl, rfl, rfl, rfl⟩
  obtain ⟨h₁, h₂, h₃, h₄⟩ := hcolumns
  unfold acceptRow
  dsimp only
  rw [h₁, h₂, h₃, h₄]
  simp [hnat, toFloat_fixed, TraceLine.replayed]

theorem acceptLoop_cells (requestId : Option Int) (rows : List TraceLine) (out : List AcceptRow) :
    acceptLoop (header requestId) (rows.map (·.cells requestId)) out =
      out ++ rows.map TraceLine.replayed := by
  induction rows generalizing out with
  | nil => exact (List.append_nil out).symm
  | cons r rows ih =>
      have hne : r.cells requestId ≠ [] := by
        unfold TraceLine.cells
        simp
      rw [List.map_cons, acceptLoop, if_neg hne, acceptRow_cells]
      dsimp only
      rw [ih, List.append_assoc]
      rfl

theorem Plain.unquoted {f : List Char} (h : Plain f) : Unquoted f :=
  fun c hc => csv_of_numerals c (h.numerals c hc)

theorem csvRecords_rows (requestId : Option Int) (rows : List TraceLine) :
    csvRecords {} (rows.map fun r => r.line requestId ++ ['\r', '\n']) =
      some (rows.map (·.cells requestId)) := by
  induction rows with
  | nil => rfl
  | cons r rows ih =>
      have hcells := r.cells_plain requestId
      have hne : r.cells requestId ≠ [] := by
        unfold TraceLine.cells
        simp
      rw [List.map_cons, TraceLine.line, csvRecords_line (fun f hf =>
        ⟨(hcells f hf).unquoted, (hcells f hf).nonempty⟩) hne, ih]
      rfl

/-- The script keeps the header and the rows, and drops the comments. -/
theorem kept_lines {comments : List (List Char)} (hc : ∀ l ∈ comments, ∃ t, l = '#' :: t)
    (requestId : Option Int) (rows : List TraceLine) :
    (comments.map (· ++ ['\n']) ++ (headerLine requestId ++ ['\r', '\n']) ::
        rows.map fun r => r.line requestId ++ ['\r', '\n']).filter
        (fun row => (row.dropWhile isWhitespace).head? ≠ some '#') =
      (headerLine requestId ++ ['\r', '\n']) ::
        rows.map fun r => r.line requestId ++ ['\r', '\n'] := by
  have hcomments : (comments.map (· ++ ['\n'])).filter
      (fun row => (row.dropWhile isWhitespace).head? ≠ some '#') = [] := by
    refine List.filter_eq_nil_iff.mpr fun l hl => ?_
    obtain ⟨l, hmem, rfl⟩ := List.mem_map.mp hl
    obtain ⟨t, rfl⟩ := hc l hmem
    rw [List.cons_append, List.dropWhile_cons_of_neg (by decide)]
    simp
  rw [List.filter_append, hcomments, List.nil_append, List.filter_eq_self]
  intro l hl
  rcases List.mem_cons.mp hl with rfl | hl
  · cases requestId with
    | none => decide
    | some id =>
        show decide (((headerLine (some 0) ++ ['\r', '\n']).dropWhile isWhitespace).head? ≠
          some '#') = true
        decide
  · obtain ⟨r, _, rfl⟩ := List.mem_map.mp hl
    have hclean := r.line_clean requestId
    cases hline : r.line requestId with
    | nil => exact absurd hline (r.line_ne_nil requestId)
    | cons c cs =>
        obtain ⟨_, _, _, hspace, hhash⟩ := hclean c (hline ▸ List.mem_cons_self)
        rw [List.cons_append, List.dropWhile_cons_of_neg (by simp [hspace])]
        simpa using hhash

/-- **What the replay script reads of a written trace**: all rows, with the decimals written. -/
theorem loadAcceptanceTrace_write {provenance : Option Provenance}
    (hp : ∀ p ∈ provenance, OneLine p.modelPair) (requestId : Option Int) (rows : List TraceLine) :
    loadAcceptanceTrace (writeTrace provenance requestId rows) =
      some (rows.map TraceLine.replayed) := by
  have hcomments : ∀ l ∈ provenance.toList.flatMap Provenance.lines,
      (∃ t, l = '#' :: t) ∧ OneLine l := by
    intro l hl
    obtain ⟨p, hmem, hl⟩ := List.mem_flatMap.mp hl
    exact Provenance.mem_lines (hp p (Option.mem_toList.mp hmem)) l hl
  have hrecords : ∀ l ∈ headerLine requestId :: rows.map (·.line requestId), OneLine l := by
    intro l hl
    rcases List.mem_cons.mp hl with rfl | hl
    · exact headerLine_oneLine requestId
    · obtain ⟨r, _, rfl⟩ := List.mem_map.mp hl
      exact fun c hc => ⟨(TraceLine.line_clean _ _ c hc).1, (TraceLine.line_clean _ _ c hc).2.1⟩
  have htext : writeTrace provenance requestId rows =
      (provenance.toList.flatMap Provenance.lines).flatMap (· ++ ['\n']) ++
        (headerLine requestId :: rows.map (·.line requestId)).flatMap (· ++ ['\r', '\n']) := by
    unfold writeTrace
    rw [List.flatMap_assoc, csvRow_header, List.flatMap_cons, List.flatMap_map, List.append_assoc]
    simp only [csvRow_cells]
  have hlines : fileLines (writeTrace provenance requestId rows) =
      (provenance.toList.flatMap Provenance.lines).map (· ++ ['\n']) ++
        (headerLine requestId ++ ['\r', '\n']) ::
          rows.map fun r => r.line requestId ++ ['\r', '\n'] := by
    rw [htext, fileLines_comments (fun l hl => (hcomments l hl).2), fileLines_records hrecords,
      List.map_cons, List.map_map]
    rfl
  have hheader : ∀ f ∈ header requestId, Unquoted f ∧ f ≠ [] := by
    cases requestId with
    | none => decide
    | some id =>
        show ∀ f ∈ header (some 0), Unquoted f ∧ f ≠ []
        decide
  have hne : header requestId ≠ [] := List.append_ne_nil_of_right_ne_nil _ (List.cons_ne_nil _ _)
  unfold loadAcceptanceTrace
  dsimp only
  rw [hlines, kept_lines fun l hl => (hcomments l hl).1, headerLine, csvRecords_line hheader hne,
    csvRecords_rows]
  show some (acceptLoop (header requestId) (rows.map (·.cells requestId)) []) = _
  rw [acceptLoop_cells, List.nil_append]

/-! ## 5. The round trip -/

/-- A written trace is read back without loss: the simulator has an entry for each row, under the
    request id (0 without one) and the round, and the replay script has the rows. -/
structure ReadBack (provenance : Option Provenance) (requestId : Option Int)
    (rows : List TraceLine) : Prop where
  loaded : (loadTraceCsv (writeTrace provenance requestId rows)).length = rows.length
  entry : ∀ r ∈ rows, ∃ (key : TraceKey) (row : TraceRow),
    (key.requestId : Int) = requestId.getD 0 ∧ key.specRound = r.round ∧
      (loadTraceCsv (writeTrace provenance requestId rows)).lookup key = some row ∧
      row.draftLength = r.draftLength ∧ row.acceptedLength = r.acceptedLength
  replayed : loadAcceptanceTrace (writeTrace provenance requestId rows) =
    some (rows.map fun r => ⟨r.round, r.draftLength, r.acceptedLength, r.avgEntropy⟩)

/-- The entries of rows that fit, the last row first. -/
theorem loadTraceCsv_fits {provenance : Option Provenance}
    (hp : ∀ p ∈ provenance, OneLine p.modelPair) {requestId : Option Int} {rows : List TraceLine}
    (hid : ∀ id ∈ requestId, 0 ≤ id ∧ id < 2 ^ 32) (hfit : ∀ r ∈ rows, r.Fits) :
    loadTraceCsv (writeTrace provenance requestId rows) =
      (rows.map fun r => ((⟨(requestId.getD 0).toNat, r.round⟩ : TraceKey),
        (⟨r.draftLength, roundTo 4 r.avgEntropy, r.acceptedLength⟩ : TraceRow))).reverse := by
  rw [loadTraceCsv_write hp, ← List.filterMap_eq_map]
  exact congrArg _ (List.filterMap_congr fun r hr => (hfit r hr).parse hid)

/-- In a list with different keys each entry is the one its key finds. -/
theorem lookup_of_mem {key : TraceKey} {row : TraceRow} {l : List (TraceKey × TraceRow)}
    (hdistinct : (l.map Prod.fst).Nodup) (h : (key, row) ∈ l) : l.lookup key = some row := by
  induction l with
  | nil => cases h
  | cons entry l ih =>
      obtain ⟨key', row'⟩ := entry
      obtain ⟨hfirst, hrest⟩ := List.nodup_cons.mp hdistinct
      rcases List.mem_cons.mp h with hmem | hmem
      · cases hmem
        rw [List.lookup_cons, beq_self_eq_true]
      · have hne : key ≠ key' := by
          rintro rfl
          exact hfirst (List.mem_map.mpr ⟨_, hmem, rfl⟩)
        rw [List.lookup_cons, beq_false_of_ne hne]
        exact ih hrest hmem

/-- Of rows with different rounds each is found at its round. -/
theorem lookup_entries (id : Nat) {rows : List TraceLine}
    (hdistinct : (rows.map TraceLine.round).Nodup) {r : TraceLine} (hr : r ∈ rows) :
    (rows.map fun r => ((⟨id, r.round⟩ : TraceKey),
        (⟨r.draftLength, roundTo 4 r.avgEntropy, r.acceptedLength⟩ : TraceRow))).reverse.lookup
      ⟨id, r.round⟩ = some ⟨r.draftLength, roundTo 4 r.avgEntropy, r.acceptedLength⟩ := by
  refine lookup_of_mem ?_ (List.mem_reverse.mpr (List.mem_map.mpr ⟨r, hr, rfl⟩))
  rw [List.map_reverse, List.nodup_reverse, List.map_map]
  have hkeys : rows.map (Prod.fst ∘ fun r : TraceLine => ((⟨id, r.round⟩ : TraceKey),
      (⟨r.draftLength, roundTo 4 r.avgEntropy, r.acceptedLength⟩ : TraceRow))) =
      (rows.map TraceLine.round).map fun n => ⟨id, n⟩ := by
    rw [List.map_map]
    rfl
  rw [hkeys]
  exact hdistinct.map fun m n h => congrArg TraceKey.specRound h

/-- **What is read back of a trace**, if its model pair is in one line. The replay script has every
    row in order, with the four decimals of the entropy that were written. When the numbers fit
    their fields and no round comes twice, the simulator has an entry for each row, and no other. -/
theorem trace_round_trip (provenance : Option Provenance)
    (hp : ∀ p ∈ provenance, OneLine p.modelPair) (requestId : Option Int) (rows : List TraceLine) :
    loadAcceptanceTrace (writeTrace provenance requestId rows) =
        some (rows.map TraceLine.replayed) ∧
      ((∀ id ∈ requestId, 0 ≤ id ∧ id < 2 ^ 32) → (∀ r ∈ rows, r.Fits) →
        (rows.map TraceLine.round).Nodup →
        (loadTraceCsv (writeTrace provenance requestId rows)).length = rows.length ∧
        ∀ r ∈ rows, (loadTraceCsv (writeTrace provenance requestId rows)).lookup
            ⟨(requestId.getD 0).toNat, r.round⟩ =
          some ⟨r.draftLength, roundTo 4 r.avgEntropy, r.acceptedLength⟩) := by
  refine ⟨loadAcceptanceTrace_write hp requestId rows, fun hid hfit hdistinct => ?_⟩
  rw [loadTraceCsv_fits hp hid hfit]
  exact ⟨by rw [List.length_reverse, List.length_map], fun r hr =>
    lookup_entries (requestId.getD 0).toNat hdistinct hr⟩

/-- A draft length beyond 32 bits is cut, further decimals of an entropy are lost, of a round that
    comes twice the last row is kept, a negative request id wraps around, a line break in the model
    pair ends the comment, and an entropy beyond the floats loses its row. -/
theorem traces_not_read_back :
    ¬ ReadBack none none [⟨0, 2 ^ 32, 5 / 2, 0⟩] ∧ ¬ ReadBack none none [⟨0, 3, 1 / 3, 0⟩] ∧
      ¬ ReadBack none none [⟨0, 3, 5 / 2, 0⟩, ⟨0, 3, 5 / 2, 1⟩] ∧
      ¬ ReadBack none (some (-1)) [⟨0, 3, 5 / 2, 0⟩] ∧
      ¬ ReadBack (some ⟨"opt:\nopt".toList, .specdec, {}, 2025, 1, 4⟩) none
        [⟨0, 3, 5 / 2, 0⟩] ∧
      ¬ ReadBack none none [⟨0, 3, 2 ^ 128, 0⟩] := by
  refine ⟨fun h => ?_, fun h => ?_, fun h => ?_, fun h => ?_, fun h => ?_, fun h => ?_⟩
  · obtain ⟨⟨id, n⟩, row, hid, hround, hrow, hdraft, _⟩ := h.entry _ List.mem_cons_self
    obtain rfl : id = 0 := Int.ofNat_eq_zero.mp hid
    subst hround
    have hlost : ((loadTraceCsv (writeTrace none none [⟨0, 2 ^ 32, 5 / 2, 0⟩])).lookup ⟨0, 0⟩).map
        TraceRow.draftLength = some 0 := by decide +kernel
    rw [hrow] at hlost
    rw [Option.some.inj hlost] at hdraft
    cases hdraft
  · exact absurd h.replayed (by decide +kernel)
  · obtain ⟨⟨id, n⟩, row, hid, hround, hrow, _, haccepted⟩ := h.entry _ List.mem_cons_self
    obtain rfl : id = 0 := Int.ofNat_eq_zero.mp hid
    subst hround
    have hlast : ((loadTraceCsv (writeTrace none none [⟨0, 3, 5 / 2, 0⟩, ⟨0, 3, 5 / 2, 1⟩])).lookup
        ⟨0, 0⟩).map TraceRow.acceptedLength = some 1 := by decide +kernel
    rw [hrow] at hlast
    rw [Option.some.inj hlast] at haccepted
    cases haccepted
  · obtain ⟨key, _, hid, _⟩ := h.entry _ List.mem_cons_self
    have hneg : (key.requestId : Int) = -1 := hid
    omega
  · exact absurd h.replayed (by decide +kernel)
  · exact absurd h.loaded (by decide +kernel)

/-- A generated trace of two rounds, with its comments. -/
theorem trace_round_trip_sample :
    loadAcceptanceTrace (writeTrace
        (some ⟨"opt-125m:opt-125m-t".toList, .specdec, {}, 2025, 2, 4⟩) (some 7)
        (generateRows 2 fun r => (3 + r, 5 / 2 + r / 8, r))) =
      some [⟨0, 3, 0, 5 / 2⟩, ⟨1, 4, 1, 21 / 8⟩] ∧
    (loadTraceCsv (writeTrace
        (some ⟨"opt-125m:opt-125m-t".toList, .specdec, {}, 2025, 2, 4⟩) (some 7)
        (generateRows 2 fun r => (3 + r, 5 / 2 + r / 8, r)))).lookup ⟨7, 1⟩ =
      some ⟨4, 21 / 8, 1⟩ := by
  have hrows : generateRows 2 (fun r => (3 + r, 5 / 2 + r / 8, r)) =
      [⟨0, 3, 5 / 2, 0⟩, ⟨1, 4, 21 / 8, 1⟩] := by decide +kernel
  obtain ⟨hreplayed, hloaded⟩ := trace_round_trip
    (some ⟨"opt-125m:opt-125m-t".toList, .specdec, {}, 2025, 2, 4⟩) (fun p hp => by
      cases hp
      decide) (some 7) [⟨0, 3, 5 / 2, 0⟩, ⟨1, 4, 21 / 8, 1⟩]
  rw [hrows]
  refine ⟨hreplayed.trans (by decide +kernel), ?_⟩
  have hentry := (hloaded (fun id hid => by
      cases hid
      decide) (fun r hr => ?_) (by decide)).2 ⟨1, 4, 21 / 8, 1⟩
    (List.mem_cons_of_mem _ List.mem_cons_self)
  · exact hentry.trans (by decide +kernel)
  · simp only [List.mem_cons, List.not_mem_nil, or_false] at hr
    rcases hr with rfl | rfl
    · exact ⟨by decide, by decide, by decide, by decide +kernel⟩
    · exact ⟨by decide, by decide, by decide, by decide +kernel⟩

end AcceptanceTrace

end Ahasd
