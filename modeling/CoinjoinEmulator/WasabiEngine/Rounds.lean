import CoinjoinEmulator.ProofKit.Collect
import CoinjoinEmulator.ProofKit.Document
import CoinjoinEmulator.ProofKit.Pattern
import CoinjoinEmulator.ProofKit.Runs
import CoinjoinEmulator.WasabiVersions
import Mathlib.Data.List.Perm.Subperm

/-! How the Wasabi engine counts rounds: the broadcast records in the log of the coordinator, or the
lines of the coinjoin store of a legacy backend. -/

namespace CoinjoinEmulator.WasabiEngine

open ProofKit WasabiVersions

/-- Whether a character matches a letter under `re.IGNORECASE`.  The long s and the other two forms
of i count as well. -/
def ignoringCase (letter c : Char) : Bool :=
  c == letter || c == letter.toUpper || (letter == 's' && c == 'ſ') ||
    (letter == 'i' && (c == 'İ' || c == 'ı'))

/-- `[0-9a-f]` under `re.IGNORECASE`. -/
def isHexDigit (c : Char) : Bool :=
  let code := c.toNat
  (48 ≤ code && code ≤ 57) || (97 ≤ code && code ≤ 102) || (65 ≤ code && code ≤ 70)

def letters (text : String) : Pattern Char := .items (text.toList.map ignoringCase)

/-- `\s+`. -/
def spaces : Pattern Char := .seq (.one isSpace) (.many isSpace)

/-- `SUCCESSFUL_BROADCAST_RE` between its first word and the colon. -/
def broadcastCoinjoin : Pattern Char := .sequence [
  spaces, letters "broadcast", .maybe (letters "ed"), spaces, .maybe (.seq (letters "the") spaces),
  letters "coinjoin", .maybe (.seq spaces (letters "transaction"))]

def colonGap : Pattern Char := .seq (letters ":") (.many isSpace)

/-- `SUCCESSFUL_BROADCAST_RE` up to its group. -/
def successfulBroadcast : Pattern Char :=
  .seq (letters "successfully") (.seq broadcastCoinjoin colonGap)

/-- The group of `SUCCESSFUL_BROADCAST_RE`. -/
def txidDigits : Pattern Char := .exactly isHexDigit 64

/-- `SUCCESSFUL_BROADCAST_RE.match`: its group, and the text after it. -/
def matchBroadcast : Finder Char (List Char) := Pattern.matchGroup successfulBroadcast txidDigits

/-- Extract unique normalized transaction ids from Wasabi broadcast records. -/
def successfulBroadcastTxids (logTexts : List String) : List String :=
  ((logTexts.flatMap fun logText => findIter matchBroadcast logText.toList).map fun digits =>
    (String.ofList digits).toLower).foldl insertNew []

/-- `len(text.split("\n")[:-1])`. -/
def storeLines (text : String) : Nat := text.toList.count '\n'

/-- `_get_current_round` on the text of the file that it reads. -/
def countRounds (architecture : BackendArchitecture) (text : String) : Nat :=
  match architecture with
  | .split => (successfulBroadcastTxids [text]).length
  | .legacy => storeLines text

/-! ### The records in a log -/

theorem isSpace_of_isHexDigit {c : Char} (h : isHexDigit c = true) : isSpace c = false := by
  simp only [isHexDigit, Bool.or_eq_true, Bool.and_eq_true, decide_eq_true_eq] at h
  simp only [isSpace, Bool.or_eq_false_iff, Bool.and_eq_false_iff, decide_eq_false_iff_not,
    beq_eq_false_iff_ne]
  omega

theorem not_isHexDigit_of_s {c : Char} (h : ignoringCase 's' c = true) : isHexDigit c = false := by
  have hc : c = 's' ∨ c = 'S' ∨ c = 'ſ' := by
    simpa [ignoringCase, or_assoc] using h
  rcases hc with rfl | rfl | rfl <;> rfl

theorem matches_letters {text : String} {word : List Char} (h : (letters text).Matches word) :
    text.toList.Forall₂ (fun letter c => ignoringCase letter c = true) word := by
  have hitems := Pattern.matches_items.mp h
  rwa [List.forall₂_map_left_iff] at hitems

/-- A pattern without the letter y has no y in its words. -/
theorem not_y_of_excludes {r : Pattern Char} (h : r.excludes 'y' = true)
    (h' : r.excludes 'Y' = true) {word : List Char} (hword : r.Matches word) {c : Char}
    (hc : c ∈ word) : ignoringCase 'y' c = false := by
  rw [Bool.eq_false_iff]
  intro hy
  have hcases : c = 'y' ∨ c = 'Y' := by simpa [ignoringCase] using hy
  rcases hcases with rfl | rfl
  · exact Pattern.not_mem_of_excludes h hword hc
  · exact Pattern.not_mem_of_excludes h' hword hc

/-- The last y of a record is the one of its first word, and its digits are no s. -/
theorem marked_broadcast {record digits : List Char} (hrecord : successfulBroadcast.Matches record)
    (hdigits : txidDigits.Matches digits) :
    Marked 11 (ignoringCase 's') (ignoringCase 'y') (record ++ digits) := by
  obtain ⟨first, others, hfirst, hothers, rfl⟩ := hrecord
  have hletters := matches_letters hfirst
  have hlength : first.length = 12 := hletters.length_eq.symm
  obtain ⟨s, hs, hhead⟩ := forall₂_getElem? hletters (i := 0) rfl
  obtain ⟨y, hy, hmark⟩ := forall₂_getElem? hletters (i := 11) rfl
  rw [List.append_assoc]
  refine ⟨⟨s, ?_, hhead⟩, ⟨y, ?_, hmark⟩, fun i c hi hc => ?_, fun i c hi hc => ?_⟩
  · rw [List.getElem?_append_left (by omega)]
    exact hs
  · rw [List.getElem?_append_left (by omega)]
    exact hy
  · rw [List.getElem?_append_right (by omega)] at hc
    rcases List.mem_append.mp (List.mem_of_getElem? hc) with hother | hdigit
    · exact not_y_of_excludes (by decide) (by decide) hothers hother
    · exact not_y_of_excludes (by decide) (by decide) hdigits hdigit
  · have hdigit : c ∈ digits := by
      simp only [List.length_append, hdigits.1] at hi
      rw [← List.append_assoc, List.getElem?_append_right
        (by rw [List.length_append]; omega)] at hc
      exact List.mem_of_getElem? hc
    rw [Bool.eq_false_iff]
    intro hs'
    have hhex := hdigits.2 c hdigit
    rw [not_isHexDigit_of_s hs'] at hhex
    cases hhex

theorem apart_matchBroadcast : Apart matchBroadcast :=
  apart_of_marked fun _ _ => marked_broadcast

/-- The digits of a record, read off the text that starts with it. -/
def digitsAfterColon (text : List Char) : List Char :=
  (((text.dropWhile fun c => c != ':').drop 1).dropWhile isSpace).take 64

theorem digits_eq {record digits rest : List Char} (hrecord : successfulBroadcast.Matches record)
    (hdigits : txidDigits.Matches digits) :
    digitsAfterColon (record ++ (digits ++ rest)) = digits := by
  obtain ⟨first, _, hfirst, ⟨middle, _, hmiddle, ⟨colon, gap, hcolon, hgap, rfl⟩, rfl⟩, rfl⟩ :=
    hrecord
  have hbefore : ∀ c ∈ first ++ middle, (c != ':') = true := by
    intro c hc
    rw [bne_iff_ne]
    rintro rfl
    rcases List.mem_append.mp hc with hc | hc
    · exact Pattern.not_mem_of_excludes (r := letters "successfully") (by decide) hfirst hc
    · exact Pattern.not_mem_of_excludes (r := broadcastCoinjoin) (by decide) hmiddle hc
  have hsingle : colon = [':'] := by
    obtain ⟨c, rest, hc, hnil, rfl⟩ := List.forall₂_cons_left_iff.mp (matches_letters hcolon)
    have hcolon : ignoringCase ':' c = true := hc
    rw [List.forall₂_nil_left_iff.mp hnil]
    simpa [ignoringCase] using hcolon
  have htext : (first ++ (middle ++ (colon ++ gap))) ++ (digits ++ rest) =
      (first ++ middle) ++ (':' :: (gap ++ (digits ++ rest))) := by
    rw [hsingle]
    simp
  rw [htext, digitsAfterColon, List.dropWhile_append_of_pos hbefore,
    List.dropWhile_cons_of_neg (by simp), List.drop_one, List.tail_cons,
    List.dropWhile_append_of_pos hgap]
  cases digits with
  | nil => cases hdigits.1
  | cons d digits =>
    have hd := isSpace_of_isHexDigit (hdigits.2 d (by simp))
    rw [List.cons_append, List.dropWhile_cons_of_neg (by simp [hd]), ← List.cons_append,
      ← hdigits.1, List.take_left]

/-- A match is found at the start of a text exactly if it starts with a record of these digits. -/
theorem matchBroadcast_iff {text digits : List Char} :
    (∃ rest, matchBroadcast text = some (digits, rest)) ↔
      ∃ record rest, successfulBroadcast.Matches record ∧ txidDigits.Matches digits ∧
        text = record ++ (digits ++ rest) := by
  constructor
  · rintro ⟨rest, hfind⟩
    obtain ⟨record, hrecord, hdigits, htext⟩ := Pattern.matches_of_matchGroup hfind
    exact ⟨record, rest, hrecord, hdigits, htext⟩
  · rintro ⟨record, rest, hrecord, hdigits, rfl⟩
    obtain ⟨found, rest', hfind⟩ := Pattern.exists_matchGroup hrecord hdigits rfl
    obtain ⟨record', hrecord', hfound, htext⟩ := Pattern.matches_of_matchGroup hfind
    have heq : digitsAfterColon (record ++ (digits ++ rest)) = digits := digits_eq hrecord hdigits
    rw [htext, digits_eq hrecord' hfound] at heq
    exact ⟨rest', heq ▸ hfind⟩

/-- The text has a broadcast record of the transaction, with any characters around it. -/
def HasRecord (text : List Char) (txid : String) : Prop :=
  ∃ before record digits after, text = before ++ (record ++ (digits ++ after)) ∧
    successfulBroadcast.Matches record ∧ txidDigits.Matches digits ∧
    txid = (String.ofList digits).toLower

theorem mem_successfulBroadcastTxids {logTexts : List String} {txid : String} :
    txid ∈ successfulBroadcastTxids logTexts ↔ ∃ text ∈ logTexts, HasRecord text.toList txid := by
  rw [successfulBroadcastTxids, mem_foldl_insertNew]
  simp only [List.not_mem_nil, false_or, List.mem_map, List.mem_flatMap,
    mem_findIter apart_matchBroadcast]
  constructor
  · rintro ⟨digits, ⟨text, htext, before, suffix, rest, hsplit, hfind⟩, rfl⟩
    obtain ⟨record, after, hrecord, hdigits, rfl⟩ := matchBroadcast_iff.mp ⟨rest, hfind⟩
    exact ⟨text, htext, before, record, digits, after, hsplit, hrecord, hdigits, rfl⟩
  · rintro ⟨text, htext, before, record, digits, after, hsplit, hrecord, hdigits, rfl⟩
    obtain ⟨rest, hfind⟩ := matchBroadcast_iff.mpr ⟨record, after, hrecord, hdigits, rfl⟩
    exact ⟨digits, ⟨text, htext, before, _, rest, hsplit, hfind⟩, rfl⟩

theorem nodup_successfulBroadcastTxids (logTexts : List String) :
    (successfulBroadcastTxids logTexts).Nodup := nodup_foldl_insertNew _ List.nodup_nil

/-! ### What is counted -/

theorem HasRecord.append {text : List Char} {txid : String} (h : HasRecord text txid)
    (rest : List Char) : HasRecord (text ++ rest) txid := by
  obtain ⟨before, record, digits, after, rfl, hrecord, hdigits, rfl⟩ := h
  exact ⟨before, record, digits, after ++ rest, by simp, hrecord, hdigits, rfl⟩

/-- The count does not fall while the file only grows. -/
theorem countRounds_mono (architecture : BackendArchitecture) {text text' : String}
    (h : text.toList <+: text'.toList) :
    countRounds architecture text ≤ countRounds architecture text' := by
  obtain ⟨rest, htext⟩ := h
  cases architecture with
  | split =>
    apply List.Subperm.length_le
    apply List.subperm_of_subset (nodup_successfulBroadcastTxids _)
    intro txid htxid
    simp only [mem_successfulBroadcastTxids, List.mem_singleton, exists_eq_left] at htxid ⊢
    rw [← htext]
    exact htxid.append rest
  | legacy =>
    show text.toList.count '\n' ≤ text'.toList.count '\n'
    rw [← htext, List.count_append]
    omega

/-- A hexadecimal digit in lower case. -/
def isLowerHexDigit (c : Char) : Bool :=
  isHexDigit c && !('A'.toNat ≤ c.toNat && c.toNat ≤ 'F'.toNat)

theorem isLowerHexDigit_toLower {c : Char} (h : isHexDigit c = true) :
    isLowerHexDigit c.toLower = true := by
  have hall : ∀ n < 103, isHexDigit (Char.ofNat n) = true →
      isLowerHexDigit (Char.ofNat n).toLower = true := by decide
  have hsmall : c.toNat < 103 := by
    simp only [isHexDigit, Bool.or_eq_true, Bool.and_eq_true, decide_eq_true_eq] at h
    omega
  have hc := hall c.toNat hsmall
  rw [Char.ofNat_toNat] at hc
  exact hc h

/-- Each transaction with a broadcast record in one of the logs is counted once, under its id of 64
lower-case hexadecimal digits, and nothing else is counted. -/
theorem successfulBroadcastTxids_spec (logTexts : List String) :
    (successfulBroadcastTxids logTexts).Nodup ∧
    (∀ txid, txid ∈ successfulBroadcastTxids logTexts ↔
      ∃ text ∈ logTexts, HasRecord text.toList txid) ∧
    ∀ txid ∈ successfulBroadcastTxids logTexts,
      txid.toList.length = 64 ∧ ∀ c ∈ txid.toList, isLowerHexDigit c = true := by
  refine ⟨nodup_successfulBroadcastTxids logTexts, fun txid => mem_successfulBroadcastTxids,
    fun txid htxid => ?_⟩
  obtain ⟨_, -, _, _, digits, _, -, -, hdigits, rfl⟩ := mem_successfulBroadcastTxids.mp htxid
  have hlower : (String.ofList digits).toLower.toList = digits.map Char.toLower := by
    show ((String.ofList digits).map Char.toLower).toList = digits.map Char.toLower
    rw [String.toList_map, String.toList_ofList]
  rw [hlower]
  refine ⟨by rw [List.length_map, hdigits.1], fun c hc => ?_⟩
  obtain ⟨d, hd, rfl⟩ := List.mem_map.mp hc
  exact isLowerHexDigit_toLower (hdigits.2 d hd)

end CoinjoinEmulator.WasabiEngine
