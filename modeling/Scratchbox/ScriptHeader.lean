import Scratchbox.PrepareExec
import Mathlib.Data.List.DropRight

/-!
# The first line of a script

`execve` takes the first word behind `#!` as the interpreter, and the rest of the line, without the
blanks around it, as one argument. The loop of `prepare_hashbang` ends a word at a blank or at the
end of the line, and stops after the second word. The two agree exactly if the line has one word or
two, and something stands behind the last one (`script_header_law_iff`).
-/

namespace Scratchbox

open List

/-! ## The header as the kernel reads it -/

def isBlank (ch : Char) : Bool := ch = ' ' || ch = '\t'

def endsLine (ch : Char) : Bool := ch = '\n' || ch = '\x00'

/-- The parts of a line: the first word, the blanks behind it, and what is left. -/
structure HeaderLine where
  interpreter : CStr
  gap : CStr
  rest : CStr

def headerLine (line : CStr) : HeaderLine :=
  let stripped := line.dropWhile isBlank
  let behind := stripped.dropWhile (!isBlank ·)
  { interpreter := stripped.takeWhile (!isBlank ·)
    gap := behind.takeWhile isBlank
    rest := behind.dropWhile isBlank }

/-- The argument: the rest of the line without the blanks at its end. -/
def HeaderLine.argument (h : HeaderLine) : Option CStr :=
  if h.rest.rdropWhile isBlank = [] then none else some (h.rest.rdropWhile isBlank)

def scriptLine (text : CStr) : CStr := (text.drop 2).takeWhile (!endsLine ·)

/-- A newline or a NUL ends the line, not the end of the file. -/
def lineTerminated (text : CStr) : Bool := ((text.drop 2).dropWhile (!endsLine ·)) ≠ []

/-- How a script is started. -/
inductive HeaderUse
  | error
  | start (interpreter : CStr) (newArgv : List CStr)
  deriving DecidableEq

def kernelHeader (line scriptPath : CStr) (argv : List CStr) : HeaderUse :=
  let h := headerLine line
  if h.interpreter = [] then .error
  else .start h.interpreter (h.interpreter :: h.argument.toList ++ scriptPath :: argv.drop 1)

/-- What `prepare_hashbang` does with the words that it has found. -/
def ExecWorld.hashbangHeader (world : ExecWorld) (target : ExecTarget) (words : List CStr) :
    HeaderUse :=
  .start (world.interpreterOf words) (words ++ target.myFile :: target.myArgv.drop 1)

variable {world : ExecWorld}

/-! ## The loop -/

theorem endsWord_eq (ch : Char) : endsWord ch = (isBlank ch || endsLine ch) := by
  simp only [endsWord, isBlank, endsLine]
  grind

section Loop

variable {words : List CStr} {word : CStr} {ch : Char}

theorem hashbangWords_append {w : CStr} (h : ∀ c ∈ w, endsWord c = false) (rest : CStr) :
    hashbangWords words word (w ++ rest) = hashbangWords words (word ++ w) rest := by
  induction w generalizing word with
  | nil => rw [nil_append, append_nil]
  | cons c w ih =>
    rw [cons_append, hashbangWords, if_neg (by simp [h c mem_cons_self]),
      ih fun d hd => h d (mem_cons_of_mem c hd), append_assoc, singleton_append]

theorem hashbangWords_blanks {b : CStr} (h : ∀ c ∈ b, isBlank c = true) (rest : CStr) :
    hashbangWords words [] (b ++ rest) = hashbangWords words [] rest := by
  induction b with
  | nil => rfl
  | cons c b ih =>
    have hc := h c mem_cons_self
    have hend : ¬ (c = '\n' ∨ c = '\x00') := by
      rintro (rfl | rfl) <;> cases hc
    rw [cons_append, hashbangWords, if_pos (by rw [endsWord_eq, hc]; rfl)]
    simp only [ne_eq, not_true_eq_false, false_and, false_or, hend, if_true, if_false]
    exact ih fun d hd => h d (mem_cons_of_mem c hd)

theorem hashbangWords_endsLine (h : endsLine ch = true) (rest : CStr) :
    hashbangWords words word (ch :: rest) = if word = [] then words else words ++ [word] := by
  have hend : ch = '\n' ∨ ch = '\x00' := by simpa [endsLine] using h
  rw [hashbangWords, if_pos (by rw [endsWord_eq, h, Bool.or_true]), if_pos (.inr hend)]

theorem hashbangWords_first (h : isBlank ch = true) (hword : word ≠ []) (rest : CStr) :
    hashbangWords [] word (ch :: rest) = hashbangWords [word] [] rest := by
  have hend : ¬ (ch = '\n' ∨ ch = '\x00') := by
    rintro (rfl | rfl) <;> cases h
  rw [hashbangWords, if_pos (by rw [endsWord_eq, h]; rfl)]
  simp [hword, hend]

theorem hashbangWords_second (h : isBlank ch = true) (hword : word ≠ []) (hwords : words ≠ [])
    (rest : CStr) : hashbangWords words word (ch :: rest) = words ++ [word] := by
  rw [hashbangWords, if_pos (by rw [endsWord_eq, h]; rfl)]
  simp [hword, hwords]

end Loop

/-! ## The loop over a line -/

/-- The parts are cut where a word or the blanks behind it end. -/
structure HeaderLine.Cut (h : HeaderLine) : Prop where
  interpreter : ∀ c ∈ h.interpreter, endsWord c = false
  gap : ∀ c ∈ h.gap, isBlank c = true
  rest : ∀ c ∈ h.rest, endsLine c = false
  noInterpreter : h.interpreter = [] → h.gap = [] ∧ h.rest = []
  noGap : h.gap = [] → h.rest = []
  restBegins : ∀ c ∈ h.rest.head?, isBlank c = false

variable {p : Char → Bool} {l : CStr}

theorem head?_dropWhile_fails {c : Char} (h : c ∈ (l.dropWhile p).head?) : p c = false := by
  have hnot := head?_dropWhile_not p l
  rw [Option.mem_def.1 h] at hnot
  exact hnot

theorem takeWhile_eq_nil_of_head (h : ∀ c ∈ l.head?, p c = true)
    (hnil : l.takeWhile p = []) : l = [] := by
  cases l with
  | nil => rfl
  | cons c l =>
    rw [takeWhile_cons, if_pos (h c rfl)] at hnil
    cases hnil

theorem headerLine_append (line : CStr) :
    line.dropWhile isBlank =
      (headerLine line).interpreter ++ ((headerLine line).gap ++ (headerLine line).rest) := by
  simp only [headerLine, takeWhile_append_dropWhile]

theorem headerLine_cut {line : CStr} (hline : ∀ c ∈ line, endsLine c = false) :
    (headerLine line).Cut := by
  have hparts : ∀ c ∈ (headerLine line).interpreter ++
      ((headerLine line).gap ++ (headerLine line).rest), endsLine c = false := by
    intro c hc
    rw [← headerLine_append] at hc
    exact hline c ((dropWhile_sublist _).mem hc)
  have hbehind : ∀ c ∈ ((line.dropWhile isBlank).dropWhile (!isBlank ·)).head?,
      isBlank c = true := by
    intro c hc
    simpa using head?_dropWhile_fails hc
  have hnoGap : (headerLine line).gap = [] → (headerLine line).rest = [] := by
    intro hgap
    have hnil := takeWhile_eq_nil_of_head hbehind hgap
    simp only [headerLine, hnil, dropWhile_nil]
  refine ⟨fun c hc => ?_, fun c hc => mem_takeWhile_imp hc, fun c hc => ?_, fun hnone => ?_,
    hnoGap, fun c hc => head?_dropWhile_fails hc⟩
  · have hblank : isBlank c = false := by simpa using mem_takeWhile_imp hc
    rw [endsWord_eq, hblank, hparts c (mem_append_left _ hc)]
    rfl
  · exact hparts c (mem_append_right _ (mem_append_right _ hc))
  · have hstripped : line.dropWhile isBlank = [] := by
      refine takeWhile_eq_nil_of_head (p := (!isBlank ·)) (fun c hc => ?_) hnone
      rw [head?_dropWhile_fails hc]
      rfl
    simp [headerLine, hstripped]

def HeaderLine.loopWords (h : HeaderLine) (terminated : Bool) : List CStr :=
  if h.interpreter = [] then []
  else if h.gap = [] then if terminated then [h.interpreter] else []
  else if h.rest = [] then [h.interpreter]
  else if h.rest.dropWhile (!isBlank ·) = [] ∧ terminated = false then [h.interpreter]
  else [h.interpreter, h.rest.takeWhile (!isBlank ·)]

/-- What follows a line in the buffer: nothing, or the character that ends it. -/
def IsEnding (ending : CStr) : Prop := ∀ c ∈ ending.head?, endsLine c = true

section Line

variable {h : HeaderLine} {ending : CStr}

theorem hashbangWords_ending (words : List CStr) (word : CStr) (hending : IsEnding ending) :
    hashbangWords words word ending =
      if ending = [] ∨ word = [] then words else words ++ [word] := by
  cases ending with
  | nil => rw [hashbangWords, if_pos (.inl rfl)]
  | cons c rest =>
    rw [hashbangWords_endsLine (hending c rfl)]
    simp

theorem HeaderLine.Cut.word_ne_nil {h : HeaderLine} (hcut : h.Cut) (hrest : h.rest ≠ []) :
    h.rest.takeWhile (!isBlank ·) ≠ [] := by
  refine fun hnil => hrest (takeWhile_eq_nil_of_head (fun d hd => ?_) hnil)
  rw [hcut.restBegins d hd]
  rfl

theorem HeaderLine.Cut.loop (hcut : h.Cut) (hending : IsEnding ending) :
    hashbangWords [] [] (h.interpreter ++ (h.gap ++ h.rest) ++ ending) =
      h.loopWords (ending ≠ []) := by
  rw [loopWords]
  by_cases hinterp : h.interpreter = []
  · obtain ⟨hgap, hrest⟩ := hcut.noInterpreter hinterp
    rw [if_pos hinterp, hinterp, hgap, hrest]
    simpa using hashbangWords_ending [] [] hending
  rw [if_neg hinterp, append_assoc, hashbangWords_append hcut.interpreter, nil_append]
  cases hgap : h.gap with
  | nil =>
    rw [hcut.noGap hgap, append_nil, nil_append, hashbangWords_ending _ _ hending]
    simp [hinterp]
  | cons c gap =>
    have hblanks : ∀ d ∈ c :: gap, isBlank d = true := hgap ▸ hcut.gap
    rw [if_neg (cons_ne_nil c gap), append_assoc, cons_append,
      hashbangWords_first (hblanks c mem_cons_self) hinterp,
      hashbangWords_blanks fun d hd => hblanks d (mem_cons_of_mem c hd)]
    -- the second word, up to a blank or to the end of the line
    have hsecond : ∀ d ∈ h.rest.takeWhile (!isBlank ·), endsWord d = false := by
      intro d hd
      have hblank : isBlank d = false := by simpa using mem_takeWhile_imp hd
      rw [endsWord_eq, hblank, hcut.rest d ((takeWhile_sublist _).mem hd)]
      rfl
    have hsplit : h.rest ++ ending =
        h.rest.takeWhile (!isBlank ·) ++ (h.rest.dropWhile (!isBlank ·) ++ ending) := by
      rw [← append_assoc, takeWhile_append_dropWhile]
    rw [hsplit, hashbangWords_append hsecond, nil_append]
    by_cases hrest : h.rest = []
    · rw [hrest, if_pos rfl]
      simpa using hashbangWords_ending [h.interpreter] [] hending
    have hword := hcut.word_ne_nil hrest
    rw [if_neg hrest]
    cases hmore : h.rest.dropWhile (!isBlank ·) with
    | nil =>
      rw [nil_append, hashbangWords_ending _ _ hending]
      simp [hword]
    | cons d more =>
      have hblank : isBlank d = true := by
        have hfails : (!isBlank d) = false := head?_dropWhile_fails (by rw [hmore]; rfl)
        simpa using hfails
      rw [cons_append, hashbangWords_second hblank hword (cons_ne_nil _ _)]
      simp

theorem hashbangWords_line {line : CStr} (hline : ∀ c ∈ line, endsLine c = false)
    (hending : IsEnding ending) :
    hashbangWords [] [] ((line ++ ending).dropWhile isBlank) =
      (headerLine line).loopWords (ending ≠ []) := by
  have hkept : ending.dropWhile isBlank = ending := by
    cases ending with
    | nil => rfl
    | cons c rest =>
      have hend : endsLine c = true := hending c rfl
      have hblank : isBlank c = false := by
        simp only [endsLine, Bool.or_eq_true, decide_eq_true_eq] at hend
        rcases hend with rfl | rfl <;> rfl
      rw [dropWhile_cons, if_neg (by simp [hblank])]
  have hskip : (line ++ ending).dropWhile isBlank = line.dropWhile isBlank ++ ending := by
    rw [dropWhile_append]
    cases hstripped : line.dropWhile isBlank with
    | nil => simpa using hkept
    | cons c rest => simp
  rw [hskip, headerLine_append]
  exact (headerLine_cut hline).loop hending

end Line

/-! ## The law -/

/-- The line has one word or two, and something stands behind the last one. -/
structure HeaderLine.Plain (h : HeaderLine) (terminated : Bool) : Prop where
  interpreter : h.interpreter ≠ []
  oneArgument : ∀ c ∈ h.rest.dropWhile (!isBlank ·), isBlank c = true
  closed : terminated = true ∨
    if h.rest = [] then h.gap ≠ [] else h.rest.dropWhile (!isBlank ·) ≠ []

theorem rdropWhile_append_blanks {s b : CStr} (h : ∀ c ∈ b, isBlank c = true) :
    (s ++ b).rdropWhile isBlank = s.rdropWhile isBlank := by
  induction b using List.reverseRecOn with
  | nil => rw [append_nil]
  | append_singleton b c ih =>
    rw [← append_assoc, rdropWhile_concat_pos _ _ _ (h c (by simp))]
    exact ih fun d hd => h d (mem_append_left _ hd)

section Law

variable {h : HeaderLine}

theorem HeaderLine.Cut.argument_iff (hcut : h.Cut) (hrest : h.rest ≠ []) :
    h.argument = some (h.rest.takeWhile (!isBlank ·)) ↔
      ∀ c ∈ h.rest.dropWhile (!isBlank ·), isBlank c = true := by
  have hword := hcut.word_ne_nil hrest
  have hself : (h.rest.takeWhile (!isBlank ·)).rdropWhile isBlank =
      h.rest.takeWhile (!isBlank ·) := by
    refine rdropWhile_eq_self_iff.2 fun hne hblank => ?_
    have hnot := mem_takeWhile_imp (getLast_mem hne)
    rw [hblank] at hnot
    cases hnot
  have hsplit : h.rest.takeWhile (!isBlank ·) ++ h.rest.dropWhile (!isBlank ·) = h.rest :=
    takeWhile_append_dropWhile
  rw [HeaderLine.argument]
  constructor
  · intro harg c hc
    split at harg
    · cases harg
    · have hdropped : h.rest.rdropWhile isBlank ++ h.rest.rtakeWhile isBlank = h.rest :=
        rdropWhile_append_rtakeWhile
      rw [Option.some.inj harg] at hdropped
      have hmore := append_cancel_left (hdropped.trans hsplit.symm)
      exact mem_rtakeWhile_imp (hmore ▸ hc)
  · intro hblanks
    have hdrop : h.rest.rdropWhile isBlank = h.rest.takeWhile (!isBlank ·) := by
      conv_lhs => rw [← hsplit]
      rw [rdropWhile_append_blanks hblanks, hself]
    rw [hdrop, if_neg hword]

theorem HeaderLine.Cut.argument_ne_none (hcut : h.Cut) (hrest : h.rest ≠ []) :
    h.argument ≠ none := by
  rw [HeaderLine.argument]
  split
  · rename_i hnil
    obtain ⟨c, rest, heq⟩ := exists_cons_of_ne_nil hrest
    have hblank := rdropWhile_eq_nil_iff.1 hnil c (heq ▸ mem_cons_self)
    rw [hcut.restBegins c (by rw [heq]; rfl)] at hblank
    cases hblank
  · exact nofun

/-- The loop finds the words that the kernel uses, exactly for plain headers. -/
theorem HeaderLine.Cut.loopWords_iff (hcut : h.Cut) (terminated : Bool) :
    (h.interpreter ≠ [] ∧ h.loopWords terminated = h.interpreter :: h.argument.toList) ↔
      h.Plain terminated := by
  by_cases hinterp : h.interpreter = []
  · exact iff_of_false (fun hleft => hleft.1 hinterp) fun hplain => hplain.interpreter hinterp
  rw [HeaderLine.loopWords, if_neg hinterp]
  by_cases hrest : h.rest = []
  · have harg : h.argument = none := by
      rw [HeaderLine.argument, hrest]
      rfl
    rw [harg, hrest]
    by_cases hgap : h.gap = []
    · rw [if_pos hgap]
      constructor
      · rintro ⟨-, hwords⟩
        refine ⟨hinterp, by simp [hrest], .inl ?_⟩
        cases terminated with
        | true => rfl
        | false => cases hwords
      · intro hplain
        have hend := hplain.closed.resolve_right (by simp [hrest, hgap])
        exact ⟨hinterp, by simp [hend]⟩
    · rw [if_neg hgap, if_pos rfl]
      exact iff_of_true ⟨hinterp, rfl⟩ ⟨hinterp, by simp [hrest], .inr (by simp [hrest, hgap])⟩
  have hgap : h.gap ≠ [] := fun hnil => hrest (hcut.noGap hnil)
  rw [if_neg hgap, if_neg hrest]
  obtain ⟨arg, harg⟩ := Option.ne_none_iff_exists'.1 (hcut.argument_ne_none hrest)
  have hiff := hcut.argument_iff hrest
  rw [harg, Option.some.injEq] at hiff
  rw [harg]
  by_cases hlost : h.rest.dropWhile (!isBlank ·) = [] ∧ terminated = false
  · rw [if_pos hlost]
    refine iff_of_false (fun hleft => by cases hleft.2) fun hplain => ?_
    rcases hplain.closed with hend | hmore
    · rw [hlost.2] at hend
      cases hend
    · rw [if_neg hrest] at hmore
      exact hmore hlost.1
  · rw [if_neg hlost]
    constructor
    · rintro ⟨-, hwords⟩
      have hsame : arg = h.rest.takeWhile (!isBlank ·) := by simpa using hwords.symm
      refine ⟨hinterp, hiff.1 hsame, ?_⟩
      rw [if_neg hrest]
      cases terminated with
      | true => exact .inl rfl
      | false => exact .inr fun hnil => hlost ⟨hnil, rfl⟩
    · intro hplain
      rw [hiff.2 hplain.oneArgument]
      exact ⟨hinterp, rfl⟩

end Law

/-- The first line is in the buffer, with the character that ends it, unless the file ends. -/
def LineFits (text : CStr) : Prop :=
  2 + (scriptLine text).length < sboxMaxpath - 1 ∨ text.length ≤ sboxMaxpath - 1

instance (text : CStr) : Decidable (LineFits text) := inferInstanceAs (Decidable (_ ∨ _))

/-- The line and what follows it, as far as it is in a buffer that the line fits into. -/
theorem take_line {data : CStr} {size : Nat}
    (hfits : (data.takeWhile (!endsLine ·)).length < size ∨ data.length ≤ size) :
    ∃ ending, data.take size = data.takeWhile (!endsLine ·) ++ ending ∧ IsEnding ending ∧
      (ending = [] ↔ data.dropWhile (!endsLine ·) = []) := by
  have hsplit : data.takeWhile (!endsLine ·) ++ data.dropWhile (!endsLine ·) = data :=
    takeWhile_append_dropWhile
  have hends : IsEnding (data.dropWhile (!endsLine ·)) :=
    fun c hc => by simpa using head?_dropWhile_fails hc
  rcases hfits with hless | hall
  · refine ⟨(data.dropWhile (!endsLine ·)).take
      (size - (data.takeWhile (!endsLine ·)).length), ?_, fun c hc => ?_, ?_⟩
    · conv_lhs => rw [← hsplit]
      rw [take_append, take_of_length_le (Nat.le_of_lt hless)]
    · rw [head?_take, if_neg (Nat.sub_ne_zero_of_lt hless)] at hc
      exact hends c hc
    · rw [take_eq_nil_iff, or_iff_right (Nat.sub_ne_zero_of_lt hless)]
  · exact ⟨_, by rw [take_of_length_le hall, hsplit], hends, Iff.rfl⟩

theorem readHashbang_eq {file text : CStr} (hread : world.contents file = some text)
    (hmagic : "#!".toList <+: text) (hfits : LineFits text) :
    world.readHashbang file =
      some ((headerLine (scriptLine text)).loopWords (lineTerminated text)) := by
  obtain ⟨data, rfl⟩ := hmagic
  have hfits' : (data.takeWhile (!endsLine ·)).length < 4093 ∨ data.length ≤ 4093 := by
    refine hfits.imp (fun hless => ?_) fun hall => ?_
    · have hless : 2 + (data.takeWhile (!endsLine ·)).length < 2 + 4093 := hless
      exact Nat.lt_of_add_lt_add_left hless
    · rw [length_append] at hall
      have hall : 2 + data.length ≤ 2 + 4093 := hall
      exact Nat.le_of_add_le_add_left hall
  obtain ⟨ending, htake, hending, hnil⟩ := take_line hfits'
  have hbuffer : (("#!".toList ++ data).take (sboxMaxpath - 1)).drop 2 = data.take 4093 := rfl
  have hlength : ¬ (("#!".toList ++ data).take (sboxMaxpath - 1)).length < 2 :=
    Nat.not_lt.2 (Nat.le_add_left 2 _)
  have hline : ∀ c ∈ data.takeWhile (!endsLine ·), endsLine c = false :=
    fun c hc => by simpa using mem_takeWhile_imp hc
  have hwords := hashbangWords_line hline hending
  have hterminated : decide (ending ≠ []) = lineTerminated ("#!".toList ++ data) :=
    decide_eq_decide.2 (not_congr hnil)
  rw [ExecWorld.readHashbang, hread]
  simp only [Option.bind_eq_bind, Option.bind_some, if_neg hlength]
  rw [hbuffer, htake, ← hterminated]
  exact congrArg some hwords

/-- A script is started as `execve` does it, exactly if its header is plain. -/
theorem script_header_law_iff (world : ExecWorld) (target : ExecTarget) {text : CStr}
    (hread : world.contents target.mappedFile = some text) (hmagic : "#!".toList <+: text)
    (hfits : LineFits text) :
    (world.readHashbang target.mappedFile).map (world.hashbangHeader target) =
        some (kernelHeader (scriptLine text) target.myFile target.myArgv) ↔
      (headerLine (scriptLine text)).Plain (lineTerminated text) := by
  have hcut : (headerLine (scriptLine text)).Cut :=
    headerLine_cut fun c hc => by simpa using mem_takeWhile_imp hc
  rw [← hcut.loopWords_iff, readHashbang_eq hread hmagic hfits, Option.map_some,
    Option.some.injEq, kernelHeader, ExecWorld.hashbangHeader]
  by_cases hinterp : (headerLine (scriptLine text)).interpreter = []
  · simp only [hinterp, if_true]
    exact iff_of_false nofun fun h => h.1 rfl
  · simp only [hinterp, if_false, HeaderUse.start.injEq]
    constructor
    · rintro ⟨-, hargv⟩
      exact ⟨hinterp, append_cancel_right hargv⟩
    · rintro ⟨-, hwords⟩
      rw [hwords]
      exact ⟨rfl, rfl⟩

def scriptWorld (text : CStr) : ExecWorld :=
  { selfScriptWorld with contents := fun _ => some text }

def scriptTarget : ExecTarget where
  execPolicyName := none
  myFile := "/s".toList
  mappedFile := "/s".toList
  myArgv := ["s".toList, "x".toList]
  myEnvp := []

theorem script_header_with_argument :
    ((scriptWorld "#!/bin/sh -e\n".toList).readHashbang "/s".toList).map
        ((scriptWorld "#!/bin/sh -e\n".toList).hashbangHeader scriptTarget) =
      some (kernelHeader (scriptLine "#!/bin/sh -e\n".toList) "/s".toList
        ["s".toList, "x".toList]) :=
  (script_header_law_iff (scriptWorld "#!/bin/sh -e\n".toList) scriptTarget rfl (by decide)
    (by decide)).2 ⟨by decide, all_eq_true.1 (by decide), .inl (by decide)⟩

/-- The kernel gives `-a -b` to the interpreter, as one argument. -/
theorem script_header_loses_argument :
    ((scriptWorld "#!/bin/sh -a -b\n".toList).readHashbang "/s".toList).map
        ((scriptWorld "#!/bin/sh -a -b\n".toList).hashbangHeader scriptTarget) =
        some (.start "/bin/sh".toList
          ["/bin/sh".toList, "-a".toList, "/s".toList, "x".toList]) ∧
      kernelHeader (scriptLine "#!/bin/sh -a -b\n".toList) "/s".toList
          ["s".toList, "x".toList] =
        .start "/bin/sh".toList
          ["/bin/sh".toList, "-a -b".toList, "/s".toList, "x".toList] := by
  decide

/-- The word at the end of a file without a newline is not seen, and without words there is no
error: the interpreter is what happens to be in memory. -/
example (text : CStr) (h : text = "#!/bin/sh".toList ∨ text = "#!\n".toList) :
    (scriptWorld text).readHashbang "/s".toList = some [] := by
  rcases h with rfl | rfl <;> rfl

end Scratchbox
