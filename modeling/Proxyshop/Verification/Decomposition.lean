import Proxyshop.Numbers.Binary64
import Proxyshop.Python.Pattern
import Proxyshop.Structures.Fallible

/-!
# Decomposition of prose

A text is cut into sentences, and every rule is tried on every sentence. A reading is what a rule
takes out of a match; of the readings of one key and value the surest is kept.
-/

namespace Proxyshop.Verification

open Python Numbers Structures Pattern

/-! ## Sentences -/

structure Sentence where
  start : Nat
  text : Str

def isTerminal (c : CodePoint) : Bool := c ∈ str ".!?;"

def isNewline (c : CodePoint) : Bool := c = CodePoint.ofChar '\n'

/-- The length of the separator `(?<=[.!?;])\s+|\n+` at a place, zero where none stands. -/
def separator (before : Option CodePoint) (rest : Str) : Nat :=
  if before.any isTerminal then (rest.takeWhile CodePoint.isSpace).length
  else (rest.takeWhile isNewline).length

/-- The pieces between the separators, each with the place where it begins. The counter skips the
separator, and the piece is read backwards. -/
def chunksFrom : Nat → Nat → Nat → Str → Option CodePoint → Str → List Sentence
  | _, _, start, piece, _, [] => [⟨start, piece.reverse⟩]
  | 0, here, start, piece, before, c :: rest =>
      match separator before (c :: rest) with
      | 0 => chunksFrom 0 (here + 1) start (c :: piece) (some c) rest
      | n+1 => ⟨start, piece.reverse⟩ :: chunksFrom n (here + 1) (here + n + 1) [] (some c) rest
  | n+1, here, start, piece, _, c :: rest => chunksFrom n (here + 1) start piece (some c) rest

/-- `_SENTENCE_SPLIT.split(text)`. -/
def chunks (text : Str) : List Sentence := chunksFrom 0 0 0 [] none text

def Sentence.stripped (chunk : Sentence) : Option Sentence :=
  if chunk.text.strip.isEmpty then none
  else some ⟨chunk.start + (chunk.text.takeWhile CodePoint.isSpace).length, chunk.text.strip⟩

def sentences (text : Str) : List Sentence := (chunks text).filterMap Sentence.stripped

/-! ### A text behind a text -/

def Sentence.shift (k : Nat) (sentence : Sentence) : Sentence := ⟨k + sentence.start, sentence.text⟩

def Closed (text : Str) : Prop :=
  (∃ c ∈ text.rtakeWhile CodePoint.isSpace, isNewline c = true) ∨
    (text.rdropWhile CodePoint.isSpace).getLast?.any isTerminal = true ∧
      text.rtakeWhile CodePoint.isSpace ≠ []

def sentencesFrom (skip here start : Nat) (piece : Str) (before : Option CodePoint) (text : Str) :
    List Sentence :=
  (chunksFrom skip here start piece before text).filterMap Sentence.stripped

def freshFrom (here : Nat) (text : Str) : List Sentence := sentencesFrom 0 here here [] none text

theorem isSpace_of_isNewline {c : CodePoint} (h : isNewline c = true) : c.isSpace = true := by
  rw [isNewline, decide_eq_true_eq] at h
  subst h
  decide

theorem isTerminal_of_isSpace {c : CodePoint} (h : c.isSpace = true) : isTerminal c = false := by
  by_contra terminal
  rw [Bool.not_eq_false, isTerminal, decide_eq_true_eq] at terminal
  have solid : (str ".!?;").all (fun d => !d.isSpace) = true := by decide
  simpa [h] using List.all_eq_true.mp solid c terminal

theorem stripped_blank_append {blanks : Str} (blank : ∀ c ∈ blanks, c.isSpace = true) (start : Nat)
    (text : Str) : Sentence.stripped ⟨start, blanks ++ text⟩ =
      Sentence.stripped ⟨start + blanks.length, text⟩ := by
  have strips : Str.strip (blanks ++ text) = text.strip := by
    rw [Str.strip, List.dropWhile_append_of_pos blank]
    rfl
  simp only [Sentence.stripped, strips]
  split
  · rfl
  · rw [List.takeWhile_append_of_pos blank, List.length_append, Nat.add_assoc]

theorem stripped_blank {blanks : Str} (blank : ∀ c ∈ blanks, c.isSpace = true) (start : Nat) :
    Sentence.stripped ⟨start, blanks⟩ = none := by
  have empty := stripped_blank_append blank start []
  rw [List.append_nil] at empty
  rw [empty]
  rfl

theorem sentencesFrom_push {before : Option CodePoint} {c : CodePoint} {rest : Str}
    (none : separator before (c :: rest) = 0) (here start : Nat) (piece : Str) :
    sentencesFrom 0 here start piece before (c :: rest) =
      sentencesFrom 0 (here + 1) start (c :: piece) (some c) rest := by
  simp only [sentencesFrom, chunksFrom, none]

theorem sentencesFrom_cut {before : Option CodePoint} {c : CodePoint} {rest : Str} {n : Nat}
    (cut : separator before (c :: rest) = n + 1) (here start : Nat) (piece : Str) :
    sentencesFrom 0 here start piece before (c :: rest) =
      (Sentence.stripped ⟨start, piece.reverse⟩).toList ++
        sentencesFrom n (here + 1) (here + n + 1) [] (some c) rest := by
  simp only [sentencesFrom, chunksFrom, cut, List.filterMap_cons]
  cases Sentence.stripped ⟨start, piece.reverse⟩ <;> rfl

theorem sentencesFrom_blanks (blanks : Str) (blank : ∀ c ∈ blanks, c.isSpace = true)
    (skip here start : Nat) (piece : Str) (before : Option CodePoint) (text : Str) :
    sentencesFrom skip here start (piece ++ blanks) before text =
      sentencesFrom skip here (start + blanks.length) piece before text := by
  have backwards : ∀ c ∈ blanks.reverse, c.isSpace = true := fun c member =>
    blank c (List.mem_reverse.mp member)
  induction text generalizing skip here piece before with
  | nil =>
      simp only [sentencesFrom, chunksFrom, List.filterMap_cons, List.filterMap_nil,
        List.reverse_append, stripped_blank_append backwards, List.length_reverse]
  | cons c rest ih =>
      cases skip with
      | zero =>
          cases separated : separator before (c :: rest) with
          | zero =>
              rw [sentencesFrom_push separated, sentencesFrom_push separated]
              exact ih 0 (here + 1) (c :: piece) (some c)
          | succ n =>
              rw [sentencesFrom_cut separated, sentencesFrom_cut separated, List.reverse_append,
                stripped_blank_append backwards, List.length_reverse]
      | succ n => exact ih n (here + 1) piece (some c)

theorem sentencesFrom_before {before before' : Option CodePoint}
    (same : before.any isTerminal = before'.any isTerminal) (here start : Nat) (piece text : Str) :
    sentencesFrom 0 here start piece before text = sentencesFrom 0 here start piece before' text := by
  cases text with
  | nil => rfl
  | cons c rest =>
      have separators : separator before (c :: rest) = separator before' (c :: rest) := by
        rw [separator, separator, same]
      simp only [sentencesFrom, chunksFrom, separators]

theorem blank_of_separator {before : Option CodePoint} {c : CodePoint} {rest : Str} {n : Nat}
    (separated : separator before (c :: rest) = n + 1) :
    n ≤ rest.length ∧ ∀ d ∈ rest.take n, d.isSpace = true := by
  have run : ∀ p : CodePoint → Bool, (∀ d, p d = true → d.isSpace = true) →
      ((c :: rest).takeWhile p).length = n + 1 → n ≤ rest.length ∧ ∀ d ∈ rest.take n, d.isSpace = true := by
    intro p spaced length
    have front : (c :: rest).takeWhile p = (c :: rest).take (n + 1) := by
      rw [← length]
      exact List.prefix_iff_eq_take.mp (List.takeWhile_prefix p)
    constructor
    · have bound := (List.takeWhile_prefix p (l := c :: rest)).length_le
      rw [length, List.length_cons] at bound
      omega
    · intro d member
      have inside : d ∈ (c :: rest).takeWhile p := by
        rw [front, List.take_succ_cons]
        exact List.mem_cons_of_mem _ member
      exact spaced d (List.mem_takeWhile_imp inside)
  unfold separator at separated
  split at separated
  · exact run _ (fun _ spaced => spaced) separated
  · exact run _ (fun _ => isSpace_of_isNewline) separated

theorem sentencesFrom_skip {text : Str} (skip : Nat) {here : Nat} {before : Option CodePoint}
    (blank : ∀ c ∈ text.take skip, c.isSpace = true) (bound : skip ≤ text.length)
    (plain : before.any isTerminal = false) :
    sentencesFrom skip here (here + skip) [] before text = freshFrom here text := by
  induction text generalizing skip here before with
  | nil =>
      obtain rfl := Nat.le_zero.mp bound
      rfl
  | cons c rest ih =>
      cases skip with
      | zero => exact sentencesFrom_before plain here here [] (c :: rest)
      | succ n =>
          rw [List.take_succ_cons, List.forall_mem_cons] at blank
          have plain' : (some c).any isTerminal = false := isTerminal_of_isSpace blank.1
          have skipped : sentencesFrom (n + 1) here (here + (n + 1)) [] before (c :: rest) =
              freshFrom (here + 1) rest := by
            rw [← ih _ blank.2 (Nat.le_of_succ_le_succ bound) plain', Nat.add_right_comm here 1 n]
            rfl
          rw [skipped, freshFrom, freshFrom]
          cases separated : separator none (c :: rest) with
          | zero =>
              rw [sentencesFrom_push separated]
              have pushed := sentencesFrom_blanks [c] (by simpa using blank.1) 0 (here + 1)
                here [] (some c) rest
              exact (pushed.trans (ih _ (by simp) (Nat.zero_le _) plain')).symm
          | succ k =>
              rw [sentencesFrom_cut separated, List.reverse_nil, stripped_blank (List.forall_mem_nil _),
                Option.toList_none, List.nil_append, Nat.add_right_comm here k 1]
              obtain ⟨within, inner⟩ := blank_of_separator separated
              exact (ih _ inner within plain').symm

theorem freshFrom_cons {c : CodePoint} (blank : c.isSpace = true) (here : Nat) (rest : Str) :
    freshFrom here (c :: rest) = freshFrom (here + 1) rest := by
  have plain : (some c).any isTerminal = false := isTerminal_of_isSpace blank
  have skipped : sentencesFrom 1 here (here + 1) [] none (c :: rest) = freshFrom here (c :: rest) :=
    sentencesFrom_skip 1 (by simpa using blank) (by simp) rfl
  rw [← skipped]
  exact sentencesFrom_skip 0 (by simp) (Nat.zero_le _) plain

theorem freshFrom_blank_append {blanks : Str} (blank : ∀ c ∈ blanks, c.isSpace = true) (here : Nat)
    (text : Str) : freshFrom here (blanks ++ text) = freshFrom (here + blanks.length) text := by
  induction blanks generalizing here with
  | nil => rfl
  | cons c blanks ih =>
      rw [List.forall_mem_cons] at blank
      rw [List.cons_append, freshFrom_cons blank.1, ih blank.2, List.length_cons]
      congr 1
      omega

/-- A separator behind the text of a walk leaves what follows to a fresh walk. -/
def Parts (here start : Nat) (piece : Str) (before : Option CodePoint) (text : Str) : Prop :=
  ∃ found, ∀ extra, sentencesFrom 0 here start piece before (text ++ extra) =
    found ++ freshFrom (here + text.length) extra

theorem parts_newline {blanks : Str} (blank : ∀ c ∈ blanks, c.isSpace = true)
    (newline : ∃ c ∈ blanks, isNewline c = true) (here start : Nat) (piece : Str)
    {before : Option CodePoint} (plain : before.any isTerminal = false) :
    Parts here start piece before blanks := by
  induction blanks generalizing here piece before with
  | nil => simp at newline
  | cons c blanks ih =>
      rw [List.forall_mem_cons] at blank
      have plain' : (some c).any isTerminal = false := isTerminal_of_isSpace blank.1
      by_cases here' : isNewline c = true
      · refine ⟨(Sentence.stripped ⟨start, piece.reverse⟩).toList, fun extra => ?_⟩
        have separated : ∃ n, separator before (c :: (blanks ++ extra)) = n + 1 := by
          simp [separator, plain, here']
        obtain ⟨n, separated⟩ := separated
        obtain ⟨within, inner⟩ := blank_of_separator separated
        rw [List.cons_append, sentencesFrom_cut separated, Nat.add_right_comm here n 1,
          sentencesFrom_skip _ inner within plain', freshFrom_blank_append blank.2, List.length_cons,
          Nat.add_right_comm, Nat.add_assoc]
      · have later : ∃ d ∈ blanks, isNewline d = true := by
          obtain ⟨d, member, line⟩ := newline
          rcases List.mem_cons.mp member with rfl | inside
          · exact absurd line here'
          · exact ⟨d, inside, line⟩
        obtain ⟨found, walks⟩ := ih blank.2 later (here + 1) (c :: piece) plain'
        refine ⟨found, fun extra => ?_⟩
        have joined : separator before (c :: (blanks ++ extra)) = 0 := by simp [separator, plain, here']
        rw [List.cons_append, sentencesFrom_push joined, walks extra, List.length_cons,
          Nat.add_right_comm, Nat.add_assoc here]

theorem parts_terminal {blanks : Str} (blank : ∀ c ∈ blanks, c.isSpace = true) (some' : blanks ≠ [])
    (here start : Nat) (piece : Str) {before : Option CodePoint}
    (terminal : before.any isTerminal = true) : Parts here start piece before blanks := by
  cases blanks with
  | nil => exact absurd rfl some'
  | cons c blanks =>
      rw [List.forall_mem_cons] at blank
      have plain : (some c).any isTerminal = false := isTerminal_of_isSpace blank.1
      refine ⟨(Sentence.stripped ⟨start, piece.reverse⟩).toList, fun extra => ?_⟩
      have separated : ∃ n, separator before (c :: (blanks ++ extra)) = n + 1 := by
        simp [separator, terminal, blank.1]
      obtain ⟨n, separated⟩ := separated
      obtain ⟨within, inner⟩ := blank_of_separator separated
      rw [List.cons_append, sentencesFrom_cut separated, Nat.add_right_comm here n 1,
        sentencesFrom_skip _ inner within plain, freshFrom_blank_append blank.2, List.length_cons,
        Nat.add_right_comm, Nat.add_assoc]

theorem takeWhile_stops {p : CodePoint → Bool} {last : CodePoint} (stops : p last = false)
    (body extra : Str) : (body ++ last :: extra).takeWhile p = body.takeWhile p := by
  induction body with
  | nil => simp [stops]
  | cons c body ih =>
      rw [List.cons_append, List.takeWhile_cons, List.takeWhile_cons, ih]

theorem separator_stops {last : CodePoint} (solid : last.isSpace = false) (before : Option CodePoint)
    (body extra : Str) : separator before (body ++ last :: extra) = separator before body := by
  have unbroken : isNewline last = false := by
    by_contra newline
    rw [Bool.not_eq_false] at newline
    rw [isSpace_of_isNewline newline] at solid
    cases solid
  unfold separator
  rw [takeWhile_stops solid, takeWhile_stops unbroken]

theorem walk_solid (body : Str) {last : CodePoint} (solid : last.isSpace = false)
    (skip here start : Nat) (within : skip ≤ body.length) (piece : Str) (before : Option CodePoint) :
    ∃ found start' piece', ∀ extra,
      sentencesFrom skip here start piece before (body ++ last :: extra) =
        found ++ sentencesFrom 0 (here + body.length + 1) start' piece' (some last) extra := by
  induction body generalizing skip here start piece before with
  | nil =>
      obtain rfl := Nat.le_zero.mp within
      refine ⟨[], start, last :: piece, fun extra => ?_⟩
      have joined : separator before (last :: extra) = 0 := by
        rw [← List.nil_append (last :: extra), separator_stops solid]
        simp [separator]
      rw [List.nil_append, sentencesFrom_push joined]
      rfl
  | cons c body ih =>
      cases skip with
      | succ n =>
          obtain ⟨found, start', piece', walks⟩ :=
            ih n (here + 1) start (Nat.le_of_succ_le_succ within) piece (some c)
          refine ⟨found, start', piece', fun extra => ?_⟩
          rw [List.length_cons, ← Nat.add_assoc, Nat.add_right_comm here]
          exact walks extra
      | zero =>
          cases separated : separator before (c :: body) with
          | zero =>
              obtain ⟨found, start', piece', walks⟩ :=
                ih 0 (here + 1) start (Nat.zero_le _) (c :: piece) (some c)
              refine ⟨found, start', piece', fun extra => ?_⟩
              have joined := (separator_stops solid before (c :: body) extra).trans separated
              rw [List.cons_append] at joined ⊢
              rw [sentencesFrom_push joined, walks extra, List.length_cons, Nat.add_right_comm here,
                Nat.add_assoc here]
          | succ n =>
              obtain ⟨bound, -⟩ := blank_of_separator separated
              obtain ⟨found, start', piece', walks⟩ := ih n (here + 1) (here + n + 1) bound [] (some c)
              refine ⟨(Sentence.stripped ⟨start, piece.reverse⟩).toList ++ found, start', piece',
                fun extra => ?_⟩
              have cut := (separator_stops solid before (c :: body) extra).trans separated
              rw [List.cons_append] at cut ⊢
              rw [sentencesFrom_cut cut, walks extra, List.append_assoc, List.length_cons,
                Nat.add_right_comm here 1, Nat.add_assoc here body.length 1]

theorem Closed.parts {text : Str} (closed : Closed text) : Parts 0 0 [] none text := by
  have blank : ∀ c ∈ text.rtakeWhile CodePoint.isSpace, c.isSpace = true := fun c member =>
    List.mem_rtakeWhile_imp member
  have whole : text.rdropWhile CodePoint.isSpace ++ text.rtakeWhile CodePoint.isSpace = text :=
    List.rdropWhile_append_rtakeWhile
  rcases List.eq_nil_or_concat' (text.rdropWhile CodePoint.isSpace) with empty | ⟨body, last, ends⟩
  · rw [empty, List.nil_append] at whole
    rcases closed with newline | ⟨terminal, -⟩
    · rw [← whole]
      exact parts_newline blank newline 0 0 [] rfl
    · rw [empty] at terminal
      cases terminal
  · have solid : last.isSpace = false := by
      have stops := List.rdropWhile_last_not CodePoint.isSpace text (by simp [ends])
      simpa [ends] using stops
    obtain ⟨found, start', piece', walks⟩ := walk_solid body solid 0 0 0 (Nat.zero_le _) [] none
    have rest : Parts (0 + body.length + 1) start' piece' (some last)
        (text.rtakeWhile CodePoint.isSpace) := by
      by_cases terminal : isTerminal last = true
      · have some' : text.rtakeWhile CodePoint.isSpace ≠ [] := by
          rcases closed with ⟨c, member, -⟩ | ⟨-, some'⟩
          · exact List.ne_nil_of_mem member
          · exact some'
        exact parts_terminal blank some' _ _ _ terminal
      · have plain : (some last).any isTerminal = false := Bool.not_eq_true _ ▸ terminal
        rcases closed with newline | ⟨terminal', -⟩
        · exact parts_newline blank newline _ _ _ plain
        · rw [ends, List.getLast?_concat] at terminal'
          exact absurd terminal' terminal
    obtain ⟨later, walks'⟩ := rest
    refine ⟨found ++ later, fun extra => ?_⟩
    have front : text ++ extra = body ++ last :: (text.rtakeWhile CodePoint.isSpace ++ extra) := by
      conv_lhs => rw [← whole, ends]
      simp
    have length : text.length = body.length + 1 + (text.rtakeWhile CodePoint.isSpace).length := by
      conv_lhs => rw [← whole, ends]
      simp only [List.length_append, List.length_singleton]
    rw [front, walks, walks', List.append_assoc, length, Nat.zero_add, Nat.zero_add]

theorem stripped_shift (k : Nat) (chunk : Sentence) :
    (chunk.shift k).stripped = chunk.stripped.map (Sentence.shift k) := by
  unfold Sentence.stripped
  by_cases empty : chunk.text.strip.isEmpty = true
  · rw [if_pos empty]
    exact if_pos empty
  · rw [if_neg empty, Option.map_some, Sentence.shift, Sentence.shift, if_neg empty, Nat.add_assoc]

theorem chunksFrom_shift (k skip here start : Nat) (piece : Str) (before : Option CodePoint) (text : Str) :
    chunksFrom skip (k + here) (k + start) piece before text =
      (chunksFrom skip here start piece before text).map (Sentence.shift k) := by
  induction text generalizing skip here start piece before with
  | nil =>
      cases skip <;> rfl
  | cons c rest ih =>
      cases skip with
      | succ n => exact ih n (here + 1) start piece (some c)
      | zero =>
          cases separated : separator before (c :: rest) with
          | zero =>
              simp only [chunksFrom, separated]
              exact ih 0 (here + 1) start (c :: piece) (some c)
          | succ n =>
              simp only [chunksFrom, separated, List.map_cons]
              have later := ih n (here + 1) (here + n + 1) [] (some c)
              rw [← Nat.add_assoc, ← Nat.add_assoc, ← Nat.add_assoc] at later
              rw [later]
              rfl

theorem freshFrom_eq (here : Nat) (text : Str) :
    freshFrom here text = (sentences text).map (Sentence.shift here) := by
  have shifted := chunksFrom_shift here 0 0 0 [] none text
  rw [Nat.add_zero] at shifted
  rw [freshFrom, sentencesFrom, shifted, List.filterMap_map, sentences, chunks, List.map_filterMap]
  congr 1
  funext chunk
  exact stripped_shift here chunk

theorem sentences_append {text : Str} (closed : Closed text) (extra : Str) :
    sentences (text ++ extra) = sentences text ++ (sentences extra).map (Sentence.shift text.length) := by
  obtain ⟨found, walks⟩ := closed.parts
  have alone : sentences text = found := by
    have none := walks []
    rw [List.append_nil] at none
    exact none.trans (List.append_nil found)
  rw [alone, ← freshFrom_eq]
  rw [Nat.zero_add] at walks
  exact walks extra

theorem stripped_append_blank (start : Nat) (text : Str) {c : CodePoint} (blank : c.isSpace = true) :
    Sentence.stripped ⟨start, text ++ [c]⟩ = Sentence.stripped ⟨start, text⟩ := by
  by_cases solid : ∃ d ∈ text, d.isSpace = false
  · obtain ⟨d, member, solid⟩ := solid
    have front : (text ++ [c]).takeWhile CodePoint.isSpace = text.takeWhile CodePoint.isSpace := by
      obtain ⟨before, after, rfl⟩ := List.append_of_mem member
      rw [List.append_assoc, List.cons_append, takeWhile_stops solid, takeWhile_stops solid]
    have strips : Str.strip (text ++ [c]) = text.strip := by
      have kept : text.dropWhile CodePoint.isSpace ≠ [] := by
        intro none
        rw [List.dropWhile_eq_nil_iff] at none
        rw [none d member] at solid
        cases solid
      rw [Str.strip, List.dropWhile_append, if_neg (by simpa using kept), List.rdropWhile_concat_pos _ _ _ blank,
        Str.strip]
    simp only [Sentence.stripped, strips, front]
  · have all : ∀ d ∈ text, d.isSpace = true := by simpa using solid
    rw [stripped_blank all, stripped_blank]
    intro d member
    rcases List.mem_append.mp member with inside | same
    · exact all d inside
    · rw [List.mem_singleton.mp same]
      exact blank

theorem sentencesFrom_blank {blanks : Str} (blank : ∀ c ∈ blanks, c.isSpace = true) (here start : Nat)
    (piece : Str) (before : Option CodePoint) :
    sentencesFrom 0 here start piece before blanks = (Sentence.stripped ⟨start, piece.reverse⟩).toList := by
  induction blanks generalizing here piece before with
  | nil =>
      rw [sentencesFrom, chunksFrom, List.filterMap_cons]
      cases Sentence.stripped ⟨start, piece.reverse⟩ <;> rfl
  | cons c blanks ih =>
      rw [List.forall_mem_cons] at blank
      cases separated : separator before (c :: blanks) with
      | zero =>
          rw [sentencesFrom_push separated, ih blank.2, List.reverse_cons, stripped_append_blank _ _ blank.1]
      | succ n =>
          obtain ⟨within, inner⟩ := blank_of_separator separated
          have plain : (some c).any isTerminal = false := isTerminal_of_isSpace blank.1
          have nothing : freshFrom (here + 1) blanks = [] := by
            rw [← List.append_nil blanks, freshFrom_blank_append blank.2]
            rfl
          rw [sentencesFrom_cut separated, Nat.add_right_comm here n 1,
            sentencesFrom_skip _ inner within plain, nothing, List.append_nil]

theorem sentences_append_blank (text : Str) {gap : Str} (blank : ∀ c ∈ gap, c.isSpace = true) :
    sentences (text ++ gap) = sentences text := by
  have whole : text.rdropWhile CodePoint.isSpace ++ text.rtakeWhile CodePoint.isSpace = text :=
    List.rdropWhile_append_rtakeWhile
  have ending : ∀ c ∈ text.rtakeWhile CodePoint.isSpace, c.isSpace = true := fun c member =>
    List.mem_rtakeWhile_imp member
  have longer : ∀ c ∈ text.rtakeWhile CodePoint.isSpace ++ gap, c.isSpace = true := by
    intro c member
    rcases List.mem_append.mp member with inside | later
    · exact ending c inside
    · exact blank c later
  have walk : ∀ s, sentences s = sentencesFrom 0 0 0 [] none s := fun _ => rfl
  rcases List.eq_nil_or_concat' (text.rdropWhile CodePoint.isSpace) with empty | ⟨body, last, ends⟩
  · rw [empty, List.nil_append] at whole
    rw [← whole, walk, walk, sentencesFrom_blank longer, sentencesFrom_blank ending]
  · have solid : last.isSpace = false := by
      have stops := List.rdropWhile_last_not CodePoint.isSpace text (by simp [ends])
      simpa [ends] using stops
    obtain ⟨found, start', piece', walks⟩ := walk_solid body solid 0 0 0 (Nat.zero_le _) [] none
    have front : text = body ++ last :: text.rtakeWhile CodePoint.isSpace := by
      conv_lhs => rw [← whole, ends]
      simp
    have back : text ++ gap = body ++ last :: (text.rtakeWhile CodePoint.isSpace ++ gap) := by
      conv_lhs => rw [front]
      simp
    rw [walk, walk, back, walks, sentencesFrom_blank longer]
    conv_rhs => rw [front, walks, sentencesFrom_blank ending]

/-! ## Hedges -/

section Hedges

variable [Prose]

def hedgeTerms : List String :=
  ["may", "might", "maybe", "occasionally", "usually", "typically", "generally", "normally", "often",
    "sometimes", "should", "aim to", "aims to", "try to", "tries to", "hope to", "up to", "as fast as",
    "where possible", "subject to", "in most cases", "we believe"]

def isLetter (c : CodePoint) : Bool := 97 ≤ c.val && c.val ≤ 122

def hedge : Regex CodePoint :=
  .edge (fun before _ => !before.head?.any isLetter) * Regex.anyOf (hedgeTerms.map lit) *
    .edge fun _ after => !after.head?.any isLetter

def hedgeDiscountFactor : ℚ := 0.4

def confidenceFloor : ℚ := 0.6

def hedgeDiscount (sentence : Str) : ℚ :=
  if hedge.search (Unicode.lower sentence) then hedgeDiscountFactor else 1

end Hedges

/-! ## Readings -/

inductive Stated
  | whole (n : Int)
  | number (x : Extended Binary64)
  | flag (b : Bool)
  | term (s : Str)
  deriving DecidableEq

structure TextReading where
  key : Str
  value : Stated
  claimType : Str
  confidence : ℚ
  span : Nat × Nat
  evidence : Str
  unit : Option Str
  deriving DecidableEq

structure Rule where
  name : Str
  pattern : Regex CodePoint
  claimType : Str
  baseConfidence : ℚ
  unit : Option Str
  /-- The key, the value and the unit, or nothing where the rule declines the match. -/
  read : Regex.Match CodePoint → Except PyError (Option (Str × Stated × Option Str))

structure Sighting where
  sentence : Sentence
  rule : Rule
  found : Regex.Match CodePoint

/-- The dictionary of readings by key and value after one more reading. -/
def keepSurest : List TextReading → TextReading → List TextReading
  | [], reading => [reading]
  | previous :: found, reading =>
      if previous.key = reading.key ∧ previous.value = reading.value then
        (if previous.confidence < reading.confidence then reading else previous) :: found
      else previous :: keepSurest found reading

/-! ### The surest readings -/

def SameFact (r r' : TextReading) : Prop := r.key = r'.key ∧ r.value = r'.value

theorem mem_of_keepSurest {found : List TextReading} {reading r : TextReading}
    (kept : r ∈ keepSurest found reading) : r ∈ found ∨ r = reading := by
  induction found with
  | nil => exact Or.inr (List.mem_singleton.mp kept)
  | cons previous found ih =>
      unfold keepSurest at kept
      split at kept
      · rcases List.mem_cons.mp kept with rfl | inside
        · split
          · exact Or.inr rfl
          · exact Or.inl List.mem_cons_self
        · exact Or.inl (List.mem_cons_of_mem _ inside)
      · rcases List.mem_cons.mp kept with rfl | inside
        · exact Or.inl List.mem_cons_self
        · exact (ih inside).imp (List.mem_cons_of_mem _) id

theorem mem_of_foldl_keepSurest {found read : List TextReading} {r : TextReading}
    (kept : r ∈ read.foldl keepSurest found) : r ∈ found ∨ r ∈ read := by
  induction read generalizing found with
  | nil => exact Or.inl kept
  | cons reading read ih =>
      rcases ih kept with inside | later
      · rcases mem_of_keepSurest inside with earlier | rfl
        · exact Or.inl earlier
        · exact Or.inr List.mem_cons_self
      · exact Or.inr (List.mem_cons_of_mem _ later)

theorem mem_keepSurest {found : List TextReading} {reading r : TextReading} (held : r ∈ found)
    (sure : SameFact reading r → reading.confidence ≤ r.confidence) : r ∈ keepSurest found reading := by
  induction found with
  | nil => cases held
  | cons previous found ih =>
      unfold keepSurest
      split
      · rename_i same
        rcases List.mem_cons.mp held with rfl | inside
        · rw [if_neg (not_lt.mpr (sure ⟨same.1.symm, same.2.symm⟩))]
          exact List.mem_cons_self
        · exact List.mem_cons_of_mem _ inside
      · rcases List.mem_cons.mp held with rfl | inside
        · exact List.mem_cons_self
        · exact List.mem_cons_of_mem _ (ih inside)

theorem mem_foldl_keepSurest {found read : List TextReading} {r : TextReading} (held : r ∈ found)
    (sure : ∀ reading ∈ read, SameFact reading r → reading.confidence ≤ r.confidence) :
    r ∈ read.foldl keepSurest found := by
  induction read generalizing found with
  | nil => exact held
  | cons reading read ih =>
      rw [List.forall_mem_cons] at sure
      exact ih (mem_keepSurest held sure.1) sure.2

theorem keepSurest_covers {found : List TextReading} {reading r : TextReading}
    (given : r ∈ found ∨ r = reading) :
    ∃ r' ∈ keepSurest found reading, SameFact r r' ∧ r.confidence ≤ r'.confidence := by
  induction found with
  | nil =>
      rcases given with none | rfl
      · cases none
      · exact ⟨r, List.mem_singleton_self r, ⟨rfl, rfl⟩, le_rfl⟩
  | cons previous found ih =>
      unfold keepSurest
      split
      · rename_i same
        rcases given with held | rfl
        · rcases List.mem_cons.mp held with rfl | inside
          · refine ⟨_, List.mem_cons_self, ?_⟩
            split
            · rename_i surer
              exact ⟨same, surer.le⟩
            · exact ⟨⟨rfl, rfl⟩, le_rfl⟩
          · exact ⟨r, List.mem_cons_of_mem _ inside, ⟨rfl, rfl⟩, le_rfl⟩
        · refine ⟨_, List.mem_cons_self, ?_⟩
          split
          · exact ⟨⟨rfl, rfl⟩, le_rfl⟩
          · rename_i surer
            exact ⟨⟨same.1.symm, same.2.symm⟩, not_lt.mp surer⟩
      · rcases given with held | rfl
        · rcases List.mem_cons.mp held with rfl | inside
          · exact ⟨r, List.mem_cons_self, ⟨rfl, rfl⟩, le_rfl⟩
          · obtain ⟨r', kept, fact⟩ := ih (Or.inl inside)
            exact ⟨r', List.mem_cons_of_mem _ kept, fact⟩
        · obtain ⟨r', kept, fact⟩ := ih (Or.inr rfl)
          exact ⟨r', List.mem_cons_of_mem _ kept, fact⟩

theorem foldl_keepSurest_covers (found : List TextReading) {read : List TextReading} {r : TextReading}
    (given : r ∈ found ∨ r ∈ read) :
    ∃ r' ∈ read.foldl keepSurest found, SameFact r r' ∧ r.confidence ≤ r'.confidence := by
  induction read generalizing found r with
  | nil => exact ⟨r, given.resolve_right (List.not_mem_nil), ⟨rfl, rfl⟩, le_rfl⟩
  | cons reading read ih =>
      have step : (∃ r' ∈ keepSurest found reading, SameFact r r' ∧ r.confidence ≤ r'.confidence) ∨
          r ∈ read := by
        rcases given with held | inside
        · exact Or.inl (keepSurest_covers (Or.inl held))
        · rcases List.mem_cons.mp inside with rfl | later
          · exact Or.inl (keepSurest_covers (Or.inr rfl))
          · exact Or.inr later
      rcases step with ⟨r', kept, fact, surer⟩ | later
      · obtain ⟨r'', kept', fact', surer'⟩ := ih _ (Or.inl kept)
        exact ⟨r'', kept', ⟨fact.1.trans fact'.1, fact.2.trans fact'.2⟩, surer.trans surer'⟩
      · exact ih _ (Or.inr later)

/-! ### The scan -/

section Scanning

variable [Prose]

def sightingsOf (rules : List Rule) (sentence : Sentence) : List Sighting :=
  rules.flatMap fun rule =>
    (rule.pattern.finditer (Unicode.lower sentence.text)).map fun found => ⟨sentence, rule, found⟩

def sightings (rules : List Rule) (text : Str) : List Sighting :=
  (sentences text).flatMap (sightingsOf rules)

def Sighting.confidence (s : Sighting) : ℚ :=
  s.rule.baseConfidence * hedgeDiscount (Unicode.lower s.sentence.text)

def Sighting.read (s : Sighting) : Except PyError (Option TextReading) := do
  match ← s.rule.read s.found with
  | none => return none
  | some (key, value, unit) =>
      return some
        { key
          value
          claimType := s.rule.claimType
          confidence := s.confidence
          span := (s.sentence.start + s.found.start, s.sentence.start + s.found.stop)
          evidence := s.sentence.text
          unit }

def scan (text : Str) (rules : List Rule) : Except PyError (List TextReading) :=
  (sightings rules text).foldlM (fun found s => do
    match ← s.read with
    | none => return found
    | some reading => return keepSurest found reading) []

/-! ## What a scan returns -/

theorem foldlM_scan {seen : List Sighting} {found out : List TextReading} :
    seen.foldlM (fun found s => do
      match ← s.read with
      | none => return found
      | some reading => return keepSurest found reading) found = .ok out ↔
      ∃ read, seen.mapM Sighting.read = .ok read ∧ read.reduceOption.foldl keepSurest found = out := by
  induction seen generalizing found with
  | nil => simp [pure, Except.pure, show [].reduceOption = ([] : List TextReading) from rfl]
  | cons s seen ih =>
      rw [List.foldlM_cons, List.mapM_cons]
      cases s.read with
      | error e =>
          constructor
          · rintro ⟨⟩
          · rintro ⟨_, none, _⟩
            cases none
      | ok answer =>
          cases answer with
          | none =>
              refine ih.trans ⟨?_, ?_⟩
              · rintro ⟨read, reads, folds⟩
                refine ⟨none :: read, ?_, folds⟩
                rw [reads]
                rfl
              · rintro ⟨read, reads, folds⟩
                obtain ⟨_, first, reads⟩ := bind_eq_ok.mp reads
                obtain ⟨rest, later, reads⟩ := bind_eq_ok.mp reads
                cases first
                cases reads
                exact ⟨rest, later, folds⟩
          | some reading =>
              refine ih.trans ⟨?_, ?_⟩
              · rintro ⟨read, reads, folds⟩
                refine ⟨some reading :: read, ?_, folds⟩
                rw [reads]
                rfl
              · rintro ⟨read, reads, folds⟩
                obtain ⟨_, first, reads⟩ := bind_eq_ok.mp reads
                obtain ⟨rest, later, reads⟩ := bind_eq_ok.mp reads
                cases first
                cases reads
                exact ⟨rest, later, folds⟩

theorem scan_eq_ok {text : Str} {rules : List Rule} {out : List TextReading} :
    scan text rules = .ok out ↔ ∃ read, (sightings rules text).mapM Sighting.read = .ok read ∧
      read.reduceOption.foldl keepSurest [] = out := foldlM_scan

theorem scan_returns {text : Str} {rules : List Rule} :
    (∃ out, scan text rules = .ok out) ↔ ∀ s ∈ sightings rules text, ∃ answer, s.read = .ok answer := by
  rw [← mapM_returns]
  constructor
  · rintro ⟨out, scanned⟩
    obtain ⟨read, reads, -⟩ := scan_eq_ok.mp scanned
    exact ⟨read, reads⟩
  · rintro ⟨read, reads⟩
    exact ⟨_, scan_eq_ok.mpr ⟨read, reads, rfl⟩⟩

/-! ### A scan of a text and of what follows it -/

def Sighting.shift (k : Nat) (s : Sighting) : Sighting := { s with sentence := s.sentence.shift k }

def TextReading.shift (k : Nat) (r : TextReading) : TextReading :=
  { r with span := (k + r.span.1, k + r.span.2) }

theorem sightingsOf_shift (rules : List Rule) (k : Nat) (sentence : Sentence) :
    sightingsOf rules (sentence.shift k) = (sightingsOf rules sentence).map (Sighting.shift k) := by
  simp only [sightingsOf, List.map_flatMap, List.map_map]
  rfl

theorem sightings_append {text : Str} (closed : Closed text) (rules : List Rule) (extra : Str) :
    sightings rules (text ++ extra) =
      sightings rules text ++ (sightings rules extra).map (Sighting.shift text.length) := by
  rw [sightings, sentences_append closed, List.flatMap_append, List.flatMap_map, sightings, sightings,
    List.map_flatMap]
  simp only [sightingsOf_shift]

theorem read_shift (k : Nat) (s : Sighting) :
    (s.shift k).read = s.read.map (Option.map (TextReading.shift k)) := by
  cases taken : s.rule.read s.found with
  | error e => simp only [Sighting.read, Sighting.shift, taken]; rfl
  | ok answer =>
      cases answer with
      | none => simp only [Sighting.read, Sighting.shift, taken]; rfl
      | some fact =>
          obtain ⟨key, value, unit⟩ := fact
          have places : ∀ n, k + s.sentence.start + n = k + (s.sentence.start + n) := Nat.add_assoc k _
          simp only [Sighting.read, Sighting.shift, Sentence.shift, Sighting.confidence, taken, places]
          rfl

end Scanning
end Proxyshop.Verification
