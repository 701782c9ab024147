import Mathlib.Data.List.Infix
import Proxyshop.Hashing.Sha256
import Proxyshop.Structures.Worklist

/-!
# Keeping a code out of prose

A text is searched for the code under every decoding that a reader can apply, up to a number of forms; what
can spell the code is replaced whole. The decoders of the standard library and its URL parser are
parameters.
-/

namespace Proxyshop.Checkout

open Python Structures Hashing

/-! ## The decoders -/

/-- Case folding, which makes no text empty; `unquote`, the decoding of escapes (which may raise), and that
of the `xn--` labels inside a text. -/
class Decoding extends Unicode where
  casefold : Str → Str
  casefold_eq_nil : ∀ s, casefold s = [] ↔ s = []
  unquote : Str → Str
  unicodeEscape : Str → Option Str
  aceLabels : Str → Str

variable [Decoding]

/-- What a decoder answers: nothing, where the text is as before. -/
def changed (text decoded : Str) : Option Str := if decoded = text then none else some decoded

def percentDecoded (text : Str) : Option Str := changed text (Decoding.unquote text)

def plus : CodePoint := CodePoint.ofChar '+'

omit [Decoding] in
def plusDecoded (text : Str) : Option Str :=
  if plus ∈ text then some (text.map fun c => if c = plus then CodePoint.ofChar ' ' else c) else none

def backslash : CodePoint := CodePoint.ofChar '\\'

def unicodeUnescaped (text : Str) : Option Str :=
  if backslash ∈ text then (Decoding.unicodeEscape text).bind (changed text) else none

def punycodeDecoded (text : Str) : Option Str :=
  if str "xn--" <:+: Decoding.casefold text then changed text (Decoding.aceLabels text) else none

inductive Decoder
  | percent
  | plus
  | unicode
  | punycode
  deriving DecidableEq

def Decoder.decode : Decoder → Str → Option Str
  | percent => percentDecoded
  | plus => plusDecoded
  | unicode => unicodeUnescaped
  | punycode => punycodeDecoded

def decoders : List Decoder := [.percent, .plus, .unicode, .punycode]

def Decoder.apply (d : Decoder) (text : Str) : Str := (d.decode text).getD text

/-! ## The detector -/

def maxForms : Nat := 64

def decodings (text : Str) : List Str :=
  decoders.filterMap fun d => (d.decode text).filter (· ≠ text)

/-- `recoverable_spellings`. -/
def recoverableSpellings (text : Str) : List Str :=
  search decodings Decoding.casefold maxForms (1 + decoders.length * maxForms) [text] []

/-- `spells_code`, of an object whose `str` may raise. -/
def spellsCode (text : Option Str) (code : Str) : Bool :=
  let needle := Decoding.casefold code
  if needle.isEmpty then false
  else
    match text with
    | none => true
    | some text => (recoverableSpellings text).any fun form => needle <:+: form

omit [Decoding] in
/-- `code.encode("utf-8", "replace")`. -/
def encodeReplacing (code : Str) : List UInt8 :=
  (Str.encodeUtf8 (code.map fun c => if c.isSurrogate then CodePoint.ofChar '?' else c)).getD []

omit [Decoding] in
def codeFingerprint (code : Str) : Str :=
  if code.isEmpty then str "code:none" else str "code:" ++ (sha256Hex (encodeReplacing code)).take 12

/-- `safe_token`. -/
def safeToken (value : Option Str) (code label : Str) : Str :=
  match value with
  | none => str "<unrenderable-" ++ label ++ str ":" ++ codeFingerprint code ++ str ">"
  | some raw =>
      if raw.isEmpty then raw
      else if !code.isEmpty && spellsCode (some raw) code then
        str "<redacted-" ++ label ++ str ":" ++ codeFingerprint code ++ str ">"
      else raw

/-- `render_can_publish`, of what the renderer prints, if it can. -/
def renderCanPublish (rendered : Option Str) (code : Str) : Bool :=
  match rendered with
  | none => true
  | some text => spellsCode (some text) code

/-! ### What the detector finds -/

def decodeAll (ds : List Decoder) (text : Str) : Str := ds.foldl (fun text d => d.apply text) text

def Spells (text code : Str) : Prop :=
  ∃ ds, Decoding.casefold code <:+: Decoding.casefold (decodeAll ds text)

/-- The forms that the text can be decoded to are few, and the decoders do not tell apart what differs in
case. -/
structure Explored (text : Str) : Prop where
  few : FewKeys decodings Decoding.casefold text maxForms
  blind : KeyBlind decodings Decoding.casefold text

theorem decodings_length (text : Str) : (decodings text).length ≤ decoders.length :=
  List.length_filterMap_le _ _

theorem mem_decodings {text v : Str} : v ∈ decodings text ↔ ∃ d : Decoder, d.decode text = some v ∧ v ≠ text := by
  rw [decodings, List.mem_filterMap]
  constructor
  · rintro ⟨d, -, decoded⟩
    obtain ⟨decoded, other⟩ := Option.filter_eq_some_iff.mp decoded
    exact ⟨d, decoded, of_decide_eq_true other⟩
  · rintro ⟨d, decoded, other⟩
    refine ⟨d, by cases d <;> decide, ?_⟩
    rw [decoded, Option.filter_some, if_pos (decide_eq_true other)]

theorem leadsTo_iff {text v : Str} : LeadsTo decodings text v ↔ ∃ ds, decodeAll ds text = v := by
  constructor
  · intro reached
    induction reached with
    | refl => exact ⟨[], rfl⟩
    | tail before child ih =>
        obtain ⟨ds, rfl⟩ := ih
        obtain ⟨d, decoded, -⟩ := mem_decodings.mp child
        refine ⟨ds ++ [d], ?_⟩
        rw [decodeAll, List.foldl_append]
        exact congrArg (Option.getD · _) decoded
  · rintro ⟨ds, rfl⟩
    induction ds using List.reverseRecOn with
    | nil => exact .refl
    | append_singleton ds d ih =>
        have last : decodeAll (ds ++ [d]) text = d.apply (decodeAll ds text) := by
          rw [decodeAll, List.foldl_append]
          rfl
        rw [last, Decoder.apply]
        cases decoded : d.decode (decodeAll ds text) with
        | none => exact ih
        | some w =>
            by_cases same : w = decodeAll ds text
            · rw [Option.getD_some, same]
              exact ih
            · exact ih.tail (mem_decodings.mpr ⟨d, decoded, same⟩)

theorem mem_recoverableSpellings {text form : Str} (explored : Explored text) :
    form ∈ recoverableSpellings text ↔ ∃ ds, Decoding.casefold (decodeAll ds text) = form := by
  constructor
  · intro found
    obtain ⟨v, reached, rfl⟩ := search_sound decodings_length explored.blind (Nat.le_refl _) found
    obtain ⟨ds, rfl⟩ := leadsTo_iff.mp reached
    exact ⟨ds, rfl⟩
  · rintro ⟨ds, rfl⟩
    exact search_complete decodings_length explored.blind explored.few (Nat.le_refl _)
      (leadsTo_iff.mpr ⟨ds, rfl⟩)

theorem spellsCode_iff {text code : Str} (explored : Explored text) (nonempty : code ≠ []) :
    spellsCode (some text) code = true ↔ Spells text code := by
  have needle : (Decoding.casefold code).isEmpty = false := by
    rw [List.isEmpty_eq_false_iff]
    exact fun empty => nonempty ((Decoding.casefold_eq_nil code).mp empty)
  rw [spellsCode, needle]
  simp only [Bool.false_eq_true, if_false, List.any_eq_true, decide_eq_true_eq]
  constructor
  · rintro ⟨form, found, inside⟩
    obtain ⟨ds, rfl⟩ := (mem_recoverableSpellings explored).mp found
    exact ⟨ds, inside⟩
  · rintro ⟨ds, inside⟩
    exact ⟨_, (mem_recoverableSpellings explored).mpr ⟨ds, rfl⟩, inside⟩

theorem spellsCode_nil (text : Option Str) : spellsCode text [] = false := by
  unfold spellsCode
  rw [(Decoding.casefold_eq_nil []).mpr rfl]
  rfl

/-! ## URLs -/

/-- What `urlsplit` reads; a port that is none raises. -/
structure UrlParts where
  scheme : Str
  hostname : Option Str
  port : Option (Option Nat)

/-- `urlsplit`, which may raise. -/
class UrlSplit where
  urlsplit : Str → Option UrlParts

variable [UrlSplit]

/-- `:port`, or nothing. -/
def portSuffix (port : Option Nat) : Str :=
  match port with
  | none | some 0 => []
  | some p => str ":" ++ Str.ofNat p

def marker (kind handle : Str) : Str := str "<" ++ kind ++ str "-url:" ++ handle ++ str ">"

/-- `_reduce_url`, where `urlsplit` returned. -/
def reduceUrl (parts : UrlParts) (code handle : Str) : Str :=
  match parts.hostname with
  | none | some [] => marker (str "hostless") handle
  | some host =>
      if spellsCode (some host) code then marker (str "redacted-host") handle
      else
        let scheme := safeToken (some (Unicode.lower parts.scheme)) code (str "scheme")
        (if scheme.isEmpty then str "?" else scheme) ++ str "://" ++ Unicode.lower host ++
          portSuffix (parts.port.getD none) ++ str "/<redacted:" ++ handle ++ str ">"

def handleOf (code : Str) : Str := if code.isEmpty then str "code:n/a" else codeFingerprint code

/-- `redact_url`. -/
def redactUrl (url : Option Str) (code : Str) : Str :=
  match url with
  | none => marker (str "unreducible") (codeFingerprint code)
  | some raw =>
      if raw.isEmpty then raw
      else
        match UrlSplit.urlsplit raw with
        | none => marker (str "unparsable") (handleOf code)
        | some parts => reduceUrl parts code (handleOf code)

/-! ### What is let through -/

def letThrough (parts : UrlParts) (code : Str) : List Str :=
  match parts.hostname with
  | none | some [] => []
  | some host =>
      if spellsCode (some host) code then []
      else
        (if spellsCode (some (Unicode.lower parts.scheme)) code then [] else [Unicode.lower parts.scheme]) ++
          [Unicode.lower host, (portSuffix (parts.port.getD none)).drop 1]

/-- The detector can explore the scheme and the host, the host is lower-cased already, and the port does not
spell the code. -/
structure Inspected (parts : UrlParts) (code : Str) : Prop where
  scheme : Explored (Unicode.lower parts.scheme)
  host : ∀ host, parts.hostname = some host → Explored host ∧ Unicode.lower host = host
  port : ¬ Spells ((portSuffix (parts.port.getD none)).drop 1) code

omit [UrlSplit] in
theorem letThrough_silent {parts : UrlParts} {code : Str} (inspected : Inspected parts code)
    (nonempty : code ≠ []) : ∀ piece ∈ letThrough parts code, ¬ Spells piece code := by
  intro piece inside
  unfold letThrough at inside
  split at inside
  · cases inside
  · cases inside
  · rename_i host _ named
    obtain ⟨explored, lowered⟩ := inspected.host host named
    split at inside
    · cases inside
    · rename_i silent
      rw [spellsCode_iff explored nonempty] at silent
      obtain scheme | rest := List.mem_append.mp inside
      · split at scheme
        · cases scheme
        · rename_i silent
          rw [spellsCode_iff inspected.scheme nonempty] at silent
          exact List.mem_singleton.mp scheme ▸ silent
      · obtain rfl | rest := List.mem_cons.mp rest
        · rw [lowered]
          exact silent
        · exact List.mem_singleton.mp rest ▸ inspected.port

/-! ### Reducing twice -/

def colon : CodePoint := CodePoint.ofChar ':'

def reduced (scheme host : Str) (port : Option Nat) (handle : Str) : Str :=
  scheme ++ str "://" ++ host ++ portSuffix port ++ str "/<redacted:" ++ handle ++ str ">"

/-- How `urlsplit` reads: a text that begins with no letter and no slashes has no host, the scheme is in
lower case, and a scheme with a host and a port is read back, unless the host was written in brackets. -/
class LawfulSplit : Prop where
  hostless : ∀ c ∈ str "<?", ∀ text, ∃ parts, UrlSplit.urlsplit (c :: text) = some parts ∧
    parts.hostname = none
  scheme_lower : ∀ url parts, UrlSplit.urlsplit url = some parts → Unicode.lower parts.scheme = parts.scheme
  read_back : ∀ url parts host handle, UrlSplit.urlsplit url = some parts → parts.hostname = some host →
    parts.scheme ≠ [] → host ≠ [] → colon ∉ host → Unicode.lower host = host →
    ∃ parts', UrlSplit.urlsplit (reduced parts.scheme host (parts.port.getD none) handle) = some parts' ∧
      parts'.scheme = parts.scheme ∧ parts'.hostname = some host ∧
      portSuffix (parts'.port.getD none) = portSuffix (parts.port.getD none)

/-- The URL names a host in lower case and without a colon, if any. -/
def PlainHost (url : Str) : Prop :=
  ∀ parts host, UrlSplit.urlsplit url = some parts → parts.hostname = some host →
    colon ∉ host ∧ Unicode.lower host = host

/-- The URL is empty, or names no host, or names a scheme and a host neither of which is seen to spell the
code. -/
def Reducible (url code : Str) : Prop :=
  url = [] ∨ ∃ parts, UrlSplit.urlsplit url = some parts ∧
    (parts.hostname.getD [] = [] ∨ parts.scheme ≠ [] ∧ spellsCode (some parts.scheme) code = false ∧
      spellsCode parts.hostname code = false)

theorem redactUrl_hostless [LawfulSplit] {c : CodePoint} (opens : c ∈ str "<?") (text code : Str) :
    redactUrl (some (c :: text)) code = marker (str "hostless") (handleOf code) := by
  obtain ⟨parts, split, hostless⟩ := LawfulSplit.hostless c opens text
  rw [redactUrl, split]
  dsimp only
  rw [reduceUrl, hostless]
  rfl

omit [Decoding] [UrlSplit] in
theorem ne_of_getElem? {s t : Str} {n : Nat} {c d : CodePoint} (one : s[n]? = some c) (other : t[n]? = some d)
    (differ : c ≠ d) : s ≠ t := by
  rintro rfl
  exact differ (Option.some.inj (one.symm.trans other))

def schemeText (parts : UrlParts) (code : Str) : Str :=
  let scheme := safeToken (some (Unicode.lower parts.scheme)) code (str "scheme")
  if scheme.isEmpty then str "?" else scheme

omit [UrlSplit] in
theorem reduceUrl_of_silent {parts : UrlParts} {code host : Str} (named : parts.hostname = some host)
    (present : host ≠ []) (silent : spellsCode (some host) code = false) (handle : Str) :
    reduceUrl parts code handle =
      reduced (schemeText parts code) (Unicode.lower host) (parts.port.getD none) handle := by
  cases host with
  | nil => exact absurd rfl present
  | cons c host =>
      rw [reduceUrl, named]
      simp only [silent, Bool.false_eq_true, if_false]
      rfl

theorem schemeText_of_silent [LawfulSplit] {url code : Str} {parts : UrlParts}
    (split : UrlSplit.urlsplit url = some parts) (schemed : parts.scheme ≠ [])
    (silent : spellsCode (some parts.scheme) code = false) : schemeText parts code = parts.scheme := by
  unfold schemeText safeToken
  rw [LawfulSplit.scheme_lower url parts split]
  dsimp only
  rw [silent, Bool.and_false]
  simp [schemed]

theorem redactUrl_reduced [LawfulSplit] {url code host : Str} {parts : UrlParts}
    (split : UrlSplit.urlsplit url = some parts) (filled : url ≠ []) (named : parts.hostname = some host)
    (present : host ≠ []) (lowered : Unicode.lower host = host) (silent : spellsCode (some host) code = false)
    (schemed : parts.scheme ≠ []) (silent' : spellsCode (some parts.scheme) code = false) :
    redactUrl (some url) code = reduced parts.scheme host (parts.port.getD none) (handleOf code) := by
  rw [redactUrl]
  simp only [List.isEmpty_iff, filled, if_false, split]
  rw [reduceUrl_of_silent named present silent, schemeText_of_silent split schemed silent', lowered]

theorem redact_twice_iff [LawfulSplit] {url code : Str} (plain : PlainHost url) :
    redactUrl (some (redactUrl (some url) code)) code = redactUrl (some url) code ↔ Reducible url code := by
  by_cases filled : url = []
  · subst filled
    exact iff_of_true rfl (Or.inl rfl)
  have whole : redactUrl (some url) code = match UrlSplit.urlsplit url with
      | none => marker (str "unparsable") (handleOf code)
      | some parts => reduceUrl parts code (handleOf code) := by
    rw [redactUrl]
    simp only [List.isEmpty_iff, filled, if_false]
  cases split : UrlSplit.urlsplit url with
  | none =>
      rw [whole, split]
      refine iff_of_false ?_ ?_
      · refine ne_of_getElem? (n := 1) (congrArg (·[1]?) (redactUrl_hostless ?_ _ code)) rfl ?_
        · decide
        · decide
      · rintro (empty | ⟨parts, split', -⟩)
        · exact filled empty
        · rw [split] at split'
          cases split'
  | some parts =>
      rw [split] at whole
      dsimp only at whole
      have reducible : Reducible url code ↔ parts.hostname.getD [] = [] ∨ parts.scheme ≠ [] ∧
          spellsCode (some parts.scheme) code = false ∧ spellsCode parts.hostname code = false := by
        constructor
        · rintro (empty | ⟨parts', split', law⟩)
          · exact absurd empty filled
          · obtain rfl := Option.some.inj (split.symm.trans split')
            exact law
        · exact fun law => Or.inr ⟨parts, split, law⟩
      rw [reducible]
      cases named : parts.hostname with
      | none =>
          have once : redactUrl (some url) code = marker (str "hostless") (handleOf code) := by
            rw [whole, reduceUrl, named]
          refine iff_of_true ?_ (Or.inl rfl)
          rw [once]
          exact redactUrl_hostless (by decide) _ code
      | some host =>
          cases host with
          | nil =>
              have once : redactUrl (some url) code = marker (str "hostless") (handleOf code) := by
                rw [whole, reduceUrl, named]
              refine iff_of_true ?_ (Or.inl rfl)
              rw [once]
              exact redactUrl_hostless (by decide) _ code
          | cons c host =>
              obtain ⟨uncolon, lowered⟩ := plain parts (c :: host) split named
              cases spelled : spellsCode (some (c :: host)) code with
              | true =>
                  have once : redactUrl (some url) code = marker (str "redacted-host") (handleOf code) := by
                    rw [whole, reduceUrl, named]
                    simp only [spelled, if_true]
                  rw [once]
                  refine iff_of_false ?_ ?_
                  · exact ne_of_getElem? (congrArg (·[1]?) (redactUrl_hostless (by decide) _ code)) rfl (by decide)
                  · rintro (empty | ⟨-, -, silent⟩)
                    · cases empty
                    · cases silent
              | false =>
                  have once : redactUrl (some url) code = reduced (schemeText parts code) (c :: host)
                      (parts.port.getD none) (handleOf code) := by
                    rw [whole, reduceUrl_of_silent named (List.cons_ne_nil c host) spelled, lowered]
                  have scheme := LawfulSplit.scheme_lower url parts split
                  by_cases schemed : parts.scheme = []
                  · have unknown : schemeText parts code = str "?" := by
                      rw [schemeText, scheme, schemed]
                      rfl
                    rw [once, unknown]
                    refine iff_of_false ?_ ?_
                    · exact ne_of_getElem? (congrArg (·[0]?) (redactUrl_hostless (by decide) _ code)) rfl (by decide)
                    · rintro (empty | ⟨present, -⟩)
                      · cases empty
                      · exact present schemed
                  cases spelled' : spellsCode (some parts.scheme) code with
                  | true =>
                      have nonempty : code.isEmpty = false := by
                        cases code with
                        | nil =>
                            rw [spellsCode_nil] at spelled'
                            cases spelled'
                        | cons _ _ => rfl
                      have hidden : schemeText parts code =
                          str "<redacted-scheme:" ++ codeFingerprint code ++ str ">" := by
                        unfold schemeText safeToken
                        rw [scheme]
                        dsimp only
                        rw [spelled', nonempty]
                        simp only [List.isEmpty_iff, schemed, if_false]
                        rfl
                      rw [once, hidden]
                      refine iff_of_false ?_ ?_
                      · exact ne_of_getElem? (congrArg (·[1]?) (redactUrl_hostless (by decide) _ code)) rfl
                          (by decide)
                      · rintro (empty | ⟨-, silent, -⟩)
                        · cases empty
                        · cases silent
                  | false =>
                      refine iff_of_true ?_ (Or.inr ⟨schemed, rfl, rfl⟩)
                      obtain ⟨parts', split', same, named', suffix⟩ := LawfulSplit.read_back url parts (c :: host)
                        (handleOf code) split named schemed (List.cons_ne_nil c host) uncolon lowered
                      rw [once, schemeText_of_silent split schemed spelled']
                      have twice := redactUrl_reduced split' (by simp [reduced, schemed]) named'
                        (List.cons_ne_nil c host) lowered spelled (same ▸ schemed) (same ▸ spelled')
                      rw [twice, same, reduced, suffix]
                      rfl

def hexValue (c : CodePoint) : Option Nat :=
  if 48 ≤ c.val ∧ c.val ≤ 57 then some (c.val - 48)
  else if 65 ≤ c.val ∧ c.val ≤ 70 then some (c.val - 55)
  else if 97 ≤ c.val ∧ c.val ≤ 102 then some (c.val - 87)
  else none

/-- `unquote` of escapes of ASCII characters. -/
def unquoteAscii : Str → Str
  | c :: a :: b :: rest =>
      match hexValue a, hexValue b with
      | some m, some n =>
          if c = CodePoint.ofChar '%' then Fin.ofNat _ (16 * m + n) :: unquoteAscii rest
          else c :: unquoteAscii (a :: b :: rest)
      | _, _ => c :: unquoteAscii (a :: b :: rest)
  | s => s

/-- Texts in ASCII without escapes and `xn--` labels. -/
@[reducible] def Decoding.ascii : Decoding where
  toUnicode := Unicode.ascii
  casefold := Unicode.ascii.lower
  casefold_eq_nil _ := List.map_eq_nil_iff
  unquote := unquoteAscii
  unicodeEscape := some
  aceLabels := id

@[reducible] def UrlSplit.texts : UrlSplit where
  urlsplit _ := some ⟨[], none, some none⟩

/-- URLs of the scheme `https` that name a host alone. -/
@[reducible] def UrlSplit.https : UrlSplit where
  urlsplit url := some
    (if (str "https://").isPrefixOf url then
      ⟨str "https", some ((url.drop 8).takeWhile (· ≠ CodePoint.ofChar '/')), some none⟩
    else ⟨[], none, some none⟩)

/-- A letter that is escaped, its escape escaped, and so on. -/
def nested (depth : Nat) : Str := str "%" ++ (List.replicate depth (str "25")).flatten ++ str "50"

example : @spellsCode Decoding.ascii (some (nested 3)) (str "P") = true := by decide

omit [Decoding] [UrlSplit] in
theorem unquoteAscii_eq_self {s : Str} (plain : CodePoint.ofChar '%' ∉ s) : unquoteAscii s = s := by
  induction s using unquoteAscii.induct with
  | case1 a b rest m n high low ih => exact absurd List.mem_cons_self plain
  | case2 c a b rest m n high low other ih =>
      rw [unquoteAscii, high, low]
      simp only [other, if_false]
      rw [ih fun inside => plain (List.mem_cons_of_mem c inside)]
  | case3 c a b rest unread ih =>
      rw [unquoteAscii]
      split
      · rename_i m n high low
        exact (unread m n high low).elim
      · rw [ih fun inside => plain (List.mem_cons_of_mem c inside)]
  | case4 s short =>
      rw [unquoteAscii]
      exact short

omit [Decoding] [UrlSplit] in
theorem nested_letters (depth : Nat) : ∀ c ∈ (List.replicate depth (str "25")).flatten ++ str "50", c ∈ str "250" := by
  intro c inside
  obtain inside | inside := List.mem_append.mp inside
  · obtain ⟨pair, listed, inside⟩ := List.mem_flatten.mp inside
    rw [List.eq_of_mem_replicate listed] at inside
    exact List.mem_append_left (str "0") inside
  · obtain rfl | rfl : c = CodePoint.ofChar '5' ∨ c = CodePoint.ofChar '0' := by simpa [str] using inside
    · decide
    · decide

omit [Decoding] [UrlSplit] in
theorem not_mem_nested {c : CodePoint} (other : c ∉ str "%250") (depth : Nat) : c ∉ nested depth := by
  intro inside
  obtain inside | inside := List.mem_cons.mp inside
  · exact other (inside ▸ List.mem_cons_self)
  · exact other (List.mem_cons_of_mem _ (nested_letters depth c inside))

omit [Decoding] [UrlSplit] in
theorem nested_shorter (depth : Nat) : nested depth ≠ nested (depth + 1) := by
  intro same
  have lengths := congrArg List.length same
  have pair : (str "25").length = 2 := rfl
  simp only [nested, List.replicate_succ, List.flatten_cons, List.length_append] at lengths
  omega

omit [Decoding] [UrlSplit] in
theorem percent_nested (depth : Nat) : letI := Decoding.ascii
    Decoder.percent.decode (nested (depth + 1)) = some (nested depth) := by
  let _ := Decoding.ascii
  have plain : CodePoint.ofChar '%' ∉ (List.replicate depth (str "25")).flatten ++ str "50" := fun inside =>
    absurd (nested_letters depth _ inside) (by decide)
  have unquoted : unquoteAscii (nested (depth + 1)) = nested depth := by
    change CodePoint.ofChar '%' :: unquoteAscii ((List.replicate depth (str "25")).flatten ++ str "50") = _
    rw [unquoteAscii_eq_self plain]
    rfl
  change changed _ (unquoteAscii (nested (depth + 1))) = _
  rw [unquoted, changed, if_neg (nested_shorter depth)]

omit [Decoding] [UrlSplit] in
theorem decodeAll_nested (depth : Nat) : letI := Decoding.ascii
    decodeAll (List.replicate (depth + 1) .percent) (nested depth) = str "P" := by
  let _ := Decoding.ascii
  induction depth with
  | zero => decide
  | succ depth ih =>
      rw [List.replicate_succ, decodeAll, List.foldl_cons, Decoder.apply, percent_nested]
      exact ih

omit [Decoding] [UrlSplit] in
theorem decodings_nested (depth : Nat) :
    @decodings Decoding.ascii (nested (depth + 1)) = [nested depth] := by
  let _ := Decoding.ascii
  have spaced : Decoder.plus.decode (nested (depth + 1)) = none := if_neg (not_mem_nested (by decide) _)
  have escaped : Decoder.unicode.decode (nested (depth + 1)) = none := if_neg (not_mem_nested (by decide) _)
  have labelled : Decoder.punycode.decode (nested (depth + 1)) = none := by
    refine if_neg fun inside => ?_
    obtain ⟨c, inside, lowered⟩ := List.mem_map.mp
      (inside.subset (by decide : CodePoint.ofChar 'x' ∈ str "xn--"))
    have letter : c ∈ str "%250" := by
      by_contra other
      exact not_mem_nested other _ inside
    have unlike : (str "%250").all (fun c =>
        (if 65 ≤ c.val ∧ c.val ≤ 90 then c + 32 else c) ≠ CodePoint.ofChar 'x') = true := by decide
    exact of_decide_eq_true (List.all_eq_true.mp unlike c letter) lowered
  rw [decodings, decoders, List.filterMap_cons, List.filterMap_cons, List.filterMap_cons, List.filterMap_cons,
    percent_nested, spaced, escaped, labelled, Option.filter_some, if_pos (decide_eq_true (nested_shorter depth))]
  rfl

omit [Decoding] [UrlSplit] in
theorem nested_unseen {depth : Nat} (deep : maxForms ≤ depth) :
    @spellsCode Decoding.ascii (some (nested depth)) (str "P") = false := by
  let _ := Decoding.ascii
  have needle : Decoding.casefold (str "P") = str "p" := by decide
  rw [spellsCode, needle]
  have unseen : ∀ form ∈ recoverableSpellings (nested depth), ¬ str "p" <:+: form := by
    intro form found inside
    obtain ⟨i, -, -, rfl⟩ := search_descent decodings_nested deep _ form found
    obtain ⟨c, inside, lowered⟩ := List.mem_map.mp (inside.subset List.mem_cons_self)
    have letter : c ∈ str "%250" := by
      by_contra other
      exact not_mem_nested other _ inside
    have unlike : (str "%250").all (fun c =>
        (if 65 ≤ c.val ∧ c.val ≤ 90 then c + 32 else c) ≠ CodePoint.ofChar 'p') = true := by decide
    exact of_decide_eq_true (List.all_eq_true.mp unlike c letter) lowered
  have none : ((recoverableSpellings (nested depth)).any fun form => str "p" <:+: form) = false := by
    rw [List.any_eq_false]
    intro form found
    rw [decide_eq_true_eq]
    exact unseen form found
  exact none

end Proxyshop.Checkout
