import Mathlib.Data.List.DropRight
import Mathlib.Data.List.Infix
import TsaBackend.Prisma
import TsaBackend.Regex

/-!
`recognition/recognition.service.impl.ts`: the order code on a photographed label.

A text is read character by character. The classes of the pattern treat both halves of a surrogate
pair alike, so that the result is the same as with UTF-16 code units.
-/

namespace TsaBackend

/-- The table of the recognized texts. -/
structure RecognitionDB where
  recognitions : Table Id String

/-- With the text that `tesseract.recognize` finds in the file, unless it fails. -/
structure RecognitionInput extends Input where
  recognized : Option String

abbrev RecognitionCall := Call RecognitionDB RecognitionInput Exn

structure RecognitionResponseDto where
  orderId : String
  brand : String
  deriving DecidableEq, Repr

/-- `\s` -/
def isSpace (c : Char) : Bool :=
  (0x09 ≤ c.toNat && c.toNat ≤ 0x0d) || (0x2000 ≤ c.toNat && c.toNat ≤ 0x200a) ||
    c.toNat ∈ [0x20, 0xa0, 0x1680, 0x2028, 0x2029, 0x202f, 0x205f, 0x3000, 0xfeff]

def isLineTerminator (c : Char) : Bool := c.toNat ∈ [0x0a, 0x0d, 0x2028, 0x2029]

/-- `[^\r\n\t]` -/
def isCodeChar (c : Char) : Bool := c.toNat ∉ [0x0d, 0x0a, 0x09]

/-- `\s*([^\r\n\t]+)` -/
def codePattern : Regex Char := .seq (.many isSpace) (.group (.plus isCodeChar))

/-- `.*hàng:\s*([^\r\n\t]+)` -/
def labelPattern : Regex Char :=
  .seq (.many fun c => !isLineTerminator c) (.seq (.lit "hàng:".toList) codePattern)

/-- `/Mã.*hàng:\s*([^\r\n\t]+)/` -/
def orderIdPattern : Regex Char := .seq (.lit "Mã".toList) labelPattern

def includes (text part : String) : Bool := part.toList <:+: text.toList

/-- `replace(/\s+/g, '')` -/
def removeSpace (l : List Char) : List Char := l.filter fun c => !isSpace c

def trim (l : List Char) : List Char := (l.dropWhile isSpace).rdropWhile isSpace

def recognize (_path : String) : RecognitionCall String :=
  .atomic fun i s =>
    match i.recognized with
    | some text => .ok (text, s)
    | none => .error .rejected

def saveRecognition (text : String) : RecognitionCall Unit :=
  .atomic fun i s =>
    if i.fresh ∈ s.recognitions then .error (.prisma .uniqueConstraint)
    else .ok ((), { s with recognitions := s.recognitions.insert i.fresh text })

/-- `file.path` throws when no file was sent. -/
def createRecognition (file : Option String) : RecognitionCall RecognitionResponseDto := do
  let some path := file | throw .typeError
  let text ← recognize path
  saveRecognition text
  let isBelongedToShopee := includes text "SPX"
  let isBelongedToSendo := includes text "Sendo"
  Call.throwIf (¬ isBelongedToSendo ∧ ¬ isBelongedToShopee)
    (.notFound "This image is not belonged to Sendo or Shopee")
  let some (_, found) := orderIdPattern.firstMatch text.toList
    | throw (.notFound "Order ID not found")
  let some code := found.groups[0]? | throw .typeError
  return {
    orderId := String.ofList (trim (removeSpace code))
    brand := if isBelongedToSendo then "Sendo" else "Shopee" }

namespace Recognition

open Call Regex

variable {text pre tail code l : List Char} {m : Match Char} {c : Char}

lemma isSpace_of_not_code (h : isCodeChar c = false) : isSpace c = true := by
  simp only [isCodeChar, isSpace, List.mem_cons, List.not_mem_nil, or_false,
    decide_eq_false_iff_not, not_not] at h ⊢
  rcases h with h | h | h <;> simp [h]

lemma isCode_of_not_space (h : isSpace c = false) : isCodeChar c = true := by
  by_contra hcode
  rw [isSpace_of_not_code (by simpa using hcode)] at h
  cases h

lemma trim_removeSpace (l : List Char) : trim (removeSpace l) = removeSpace l := by
  have hspace : ∀ c ∈ removeSpace l, isSpace c = false := by simp [removeSpace]
  have hdrop : ∀ l : List Char, (∀ c ∈ l, isSpace c = false) → l.dropWhile isSpace = l := by
    intro l hl
    cases l with
    | nil => rfl
    | cons c l => rw [List.dropWhile_cons_of_neg (by simp [hl c])]
  rw [trim, hdrop _ hspace, List.rdropWhile, hdrop _ (by simpa using hspace), List.reverse_reverse]

lemma first_codePattern_eq_none :
    codePattern.first tail = none ↔ ∀ c ∈ tail, isCodeChar c = false := by
  rw [codePattern, first_many_seq_eq_none]
  simp only [first_group, Option.map_eq_none_iff, first_plus_eq_none]
  constructor
  · intro h c hc
    by_contra hcode
    -- the first character of a code stands behind white space
    obtain ⟨a, d, b, rfl, ha, hd⟩ := exists_first_not (p := fun c => !isCodeChar c) hc
      (by simpa using hcode)
    have hspace : ∀ c ∈ a, isSpace c = true := fun c hc =>
      isSpace_of_not_code (by simpa using ha c hc)
    rw [h a (d :: b) rfl hspace d rfl] at hd
    cases hd
  · rintro h a b rfl - c hc
    exact h c (List.mem_append_right _ (List.mem_of_mem_head? hc))

/-- **What the group captures**: the whole rest of a line, up to a tab, behind some white space;
only when nothing else follows may it be white space itself. -/
lemma first_codePattern (h : codePattern.first tail = some m) :
    ∃ gap code, gap ++ (code ++ m.rest) = tail ∧ (∀ c ∈ gap, isSpace c = true) ∧
      (∀ c ∈ code, isCodeChar c = true) ∧ (∀ c ∈ m.rest.head?, isCodeChar c = false) ∧
      m.groups = [code] ∧
      ((∀ c ∈ code, isSpace c = true) → ∀ c ∈ tail, isSpace c = true) := by
  rw [codePattern, first_many_seq, findSome?_runs] at h
  obtain ⟨gap, b, rfl, hgap, hm, hlongest⟩ := h
  obtain ⟨m', hm', rfl⟩ := Option.map_eq_some_iff.mp hm
  obtain ⟨code, rfl, hne, hcode, hrest, hgroups⟩ := first_group_plus hm'
  refine ⟨gap, code, rfl, hgap, hcode, hrest, hgroups, fun hspace => ?_⟩
  by_contra hno
  rw [not_forall₂] at hno
  obtain ⟨d, hd, hdspace⟩ := hno
  -- the run before the first other character is longer than the one that was settled on
  obtain ⟨a, e, b', heq, ha, he⟩ := exists_first_not hd (by simpa using hdspace)
  have hlen : (gap ++ code).length ≤ a.length := by
    refine length_le_of_not (heq.trans (List.append_assoc _ _ _).symm) (fun c hc => ?_) he
    exact (List.mem_append.mp hc).elim (hgap c) (hspace c)
  have hlt : gap.length < a.length := by
    have := List.length_pos_iff.mpr hne
    rw [List.length_append] at hlen
    omega
  have hnone := hlongest a (e :: b') heq ha hlt
  rw [Option.map_eq_none_iff, first_group, Option.map_eq_none_iff, first_plus_eq_none] at hnone
  have hcode' := isCode_of_not_space he
  rw [hnone e rfl] at hcode'
  cases hcode'

/-! ### Labels and recognized codes -/

/-- A text that begins with a label: `Mã` and, on the same line, `hàng:`. -/
def Label (l mid tail : List Char) : Prop :=
  "Mã".toList ++ (mid ++ ("hàng:".toList ++ tail)) = l ∧ ∀ c ∈ mid, isLineTerminator c = false

lemma Label.suffix {mid : List Char} (h : Label l mid tail) : tail <:+ l :=
  ⟨"Mã".toList ++ (mid ++ "hàng:".toList), by rw [← h.1]; simp only [List.append_assoc]⟩

lemma first_orderIdPattern (h : orderIdPattern.first l = some m) :
    ∃ mid tail m', Label l mid tail ∧ codePattern.first tail = some m' ∧ m.rest = m'.rest ∧
      m.groups = m'.groups ∧ ∀ mid' tail', Label l mid' tail' → mid.length < mid'.length →
        codePattern.first tail' = none := by
  rw [orderIdPattern, first_lit_seq] at h
  obtain ⟨b, m₁, rfl, h, rfl⟩ := h
  rw [labelPattern, first_many_seq, findSome?_runs] at h
  obtain ⟨mid, b', rfl, hmid, hm, hlongest⟩ := h
  obtain ⟨m₂, hm₂, rfl⟩ := Option.map_eq_some_iff.mp hm
  obtain ⟨tail, m', rfl, hm', rfl⟩ := first_lit_seq.mp hm₂
  refine ⟨mid, tail, m', ⟨rfl, by simpa using hmid⟩, hm', rfl, rfl, ?_⟩
  rintro mid' tail' ⟨heq, hmid'⟩ hlt
  have hnone := hlongest mid' ("hàng:".toList ++ tail') (List.append_cancel_left heq)
    (by simpa using hmid') hlt
  exact first_lit_seq_eq_none.mp (Option.map_eq_none_iff.mp hnone) tail' rfl

lemma first_orderIdPattern_eq_none : orderIdPattern.first l = none ↔
    ∀ mid tail, Label l mid tail → ∀ c ∈ tail, isCodeChar c = false := by
  rw [orderIdPattern, first_lit_seq_eq_none]
  simp only [labelPattern, first_many_seq_eq_none, first_lit_seq_eq_none, first_codePattern_eq_none]
  constructor
  · rintro h mid tail ⟨rfl, hmid⟩
    exact h _ rfl mid _ rfl (by simpa using hmid) tail rfl
  · rintro h _ rfl mid _ rfl hmid tail rfl
    exact h mid tail ⟨rfl, by simpa using hmid⟩

/-- The first label of the text is followed by white space only, which could be a code. -/
structure BlankLabel (text pre mid tail : List Char) : Prop where
  label : ∃ l, pre ++ l = text ∧ Label l mid tail
  blank : ∀ c ∈ tail, isSpace c = true
  code : ∃ c ∈ tail, isCodeChar c = true
  leftmost : ∀ pre' l mid' tail', pre' ++ l = text → Label l mid' tail' →
    pre.length ≤ pre'.length

/-- Behind the last label of a text nothing but white space is left. -/
lemma tail_unique {a b t t' : List Char}
    (h : a ++ ("hàng:".toList ++ t) = b ++ ("hàng:".toList ++ t'))
    (ht : ∀ c ∈ t, isSpace c = true) (ht' : ∀ c ∈ t', isSpace c = true) : t = t' := by
  have hend : ∀ a t : List Char, (∀ c ∈ t, isSpace c = true) →
      (a ++ ("hàng:".toList ++ t)).reverse.takeWhile isSpace = t.reverse := by
    intro a t ht
    have hlit : "hàng:".toList = ['h', 'à', 'n', 'g', ':'] := rfl
    have hrev : (a ++ ("hàng:".toList ++ t)).reverse =
        t.reverse ++ ':' :: (['g', 'n', 'à', 'h'] ++ a.reverse) := by
      simp [hlit]
    rw [hrev, List.takeWhile_append_of_pos (by simpa using ht),
      List.takeWhile_cons_of_neg (by decide), List.append_nil]
  have := hend b t' ht'
  rw [← h, hend a t ht] at this
  exact List.reverse_injective this

/-- Where a label is followed by what could be a code, the pattern matches. -/
lemma first_ne_none_of_label {mid : List Char} (h : Label l mid tail) (hc : c ∈ tail)
    (hcode : isCodeChar c = true) : orderIdPattern.first l ≠ none := by
  intro hnone
  rw [first_orderIdPattern_eq_none.mp hnone mid tail h c hc] at hcode
  cases hcode

lemma blankLabel_of_blank (hm : orderIdPattern.firstMatch text = some (pre, m))
    (hcode : m.groups = [code]) (hspace : ∀ c ∈ code, isSpace c = true) :
    ∃ mid tail, BlankLabel text pre mid tail := by
  obtain ⟨l, rfl, hfirst, hnone⟩ := firstMatch_iff.mp hm
  obtain ⟨mid, tail, m', hlabel, hm', -, hgroups, -⟩ := first_orderIdPattern hfirst
  obtain ⟨gap, code', -, -, -, -, hcode', hblank⟩ := first_codePattern hm'
  rw [hgroups, hcode'] at hcode
  cases hcode
  have htail := hblank hspace
  have hsome : ∃ c ∈ tail, isCodeChar c = true := by
    by_contra hno
    rw [first_codePattern_eq_none.mpr (by simpa using hno)] at hm'
    cases hm'
  refine ⟨mid, tail, ⟨l, rfl, hlabel⟩, htail, hsome, ?_⟩
  intro pre' l' mid' tail' heq hlabel'
  by_contra hlt
  -- an earlier label without a match would end where this one does
  have hcode' := first_orderIdPattern_eq_none.mp (hnone pre' l' heq (by omega)) mid' tail' hlabel'
  have htail' : tail' = tail := by
    refine tail_unique (a := pre' ++ ("Mã".toList ++ mid')) (b := pre ++ ("Mã".toList ++ mid)) ?_
      (fun c hc => isSpace_of_not_code (hcode' c hc)) htail
    rw [← hlabel.1, ← hlabel'.1] at heq
    simpa only [List.append_assoc] using heq
  obtain ⟨c, hc, hcc⟩ := hsome
  rw [hcode' c (htail' ▸ hc)] at hcc
  cases hcc

/-- Behind a blank label there is nothing to capture but white space. -/
lemma blank_of_blankLabel {mid : List Char} (h : BlankLabel text pre mid tail) :
    ∃ m code, orderIdPattern.firstMatch text = some (pre, m) ∧ m.groups = [code] ∧
      ∀ c ∈ code, isSpace c = true := by
  obtain ⟨⟨l, rfl, hlabel⟩, hblank, ⟨c, hc, hcc⟩, hleft⟩ := h
  have hmatches := first_ne_none_of_label hlabel hc hcc
  rcases hm : orderIdPattern.firstMatch (pre ++ l) with _ | ⟨pre', m⟩
  · exact absurd (firstMatch_eq_none.mp hm pre l rfl) hmatches
  obtain ⟨l', heq, hfirst, hnone⟩ := firstMatch_iff.mp hm
  obtain ⟨mid', tail', m', hlabel', hm', -, hgroups, hlongest⟩ := first_orderIdPattern hfirst
  -- the leftmost match begins with the label
  have hpre : ¬ pre.length < pre'.length := fun h => hmatches (hnone pre l rfl h)
  have hpre' := hleft pre' l' mid' tail' heq hlabel'
  obtain ⟨rfl, rfl⟩ := List.append_inj heq (by omega)
  obtain ⟨gap, code, htail', -, -, -, hcode, -⟩ := first_codePattern hm'
  refine ⟨m, code, rfl, by rw [hgroups, hcode], fun d hd => hblank d ?_⟩
  have hmid : ¬ mid'.length < mid.length := by
    intro hlt
    rw [first_codePattern_eq_none.mp (hlongest mid tail hlabel hlt) c hc] at hcc
    cases hcc
  -- so that what is captured comes from the end of the text
  have hsuffix : tail' <:+ tail := by
    have hlen := congrArg List.length (hlabel.1.trans hlabel'.1.symm)
    simp only [List.length_append] at hlen
    exact List.suffix_of_suffix_length_le hlabel'.suffix hlabel.suffix (by omega)
  refine hsuffix.subset ?_
  rw [← htail']
  simp [hd]

/-- The text is from one of the two shops. -/
def Branded (text : String) : Prop := includes text "SPX" = true ∨ includes text "Sendo" = true

/-- The code is what follows `hàng:`, itself behind `Mã` on its line, up to the end of a line or a
tab, without its white space. -/
def FollowsLabel (text orderId : List Char) : Prop :=
  ∃ pre l mid gap code rest, pre ++ l = text ∧ Label l mid (gap ++ (code ++ rest)) ∧
    (∀ c ∈ gap, isSpace c = true) ∧ (∀ c ∈ code, isCodeChar c = true) ∧
    (∀ c ∈ rest.head?, isCodeChar c = false) ∧ removeSpace code = orderId

structure UsableCode (text orderId : String) : Prop where
  nonempty : orderId ≠ ""
  noSpace : ∀ c ∈ orderId.toList, isSpace c = false
  follows : FollowsLabel text.toList orderId.toList

variable {file : Option String} {ω : ℕ → RecognitionInput} {s t : RecognitionDB}
  {r : RecognitionResponseDto} {found : String}

/-- A call that returns has found a code on the label of a shop. -/
lemma found_of_returns (hfound : (ω 0).recognized = some found)
    (h : (createRecognition file).exec ω s = (.ok r, t)) :
    Branded found ∧ ∃ pre m code, orderIdPattern.firstMatch found.toList = some (pre, m) ∧
      m.groups[0]? = some code ∧ r.orderId = String.ofList (removeSpace code) := by
  rcases file with _ | path
  · cases h
  unfold createRecognition recognize saveRecognition at h
  dsimp only at h
  rw [exec_atomic_bind, hfound] at h
  dsimp only at h
  rw [exec_atomic_bind] at h
  by_cases hid : (ω 1).fresh ∈ s.recognitions
  · rw [if_pos hid] at h
    cases h
  rw [if_neg hid] at h
  dsimp only at h
  rw [exec_throwIf_bind] at h
  split at h
  · cases h
  next hbrand =>
    rcases hm : orderIdPattern.firstMatch found.toList with _ | ⟨pre, m⟩
    · rw [hm] at h
      cases h
    rw [hm] at h
    dsimp only at h
    rcases hcode : m.groups[0]? with _ | code
    · rw [hcode] at h
      cases h
    rw [hcode] at h
    cases h
    refine ⟨?_, pre, m, code, rfl, hcode, by rw [trim_removeSpace]⟩
    unfold Branded
    by_contra hno
    rw [not_or] at hno
    exact hbrand ⟨hno.2, hno.1⟩

lemma returns_of_found (hbrand : Branded found)
    (hm : orderIdPattern.firstMatch found.toList = some (pre, m))
    (hcode : m.groups[0]? = some code) :
    ∃ r t, (createRecognition (some "")).exec (fun _ => ⟨default, some found⟩) ⟨∅⟩ = (.ok r, t) ∧
      r.orderId = String.ofList (removeSpace code) := by
  have hguard : ¬ (¬ includes found "Sendo" = true ∧ ¬ includes found "SPX" = true) := by
    rintro ⟨hsendo, hspx⟩
    exact hbrand.elim hspx hsendo
  unfold createRecognition recognize saveRecognition
  dsimp only
  rw [exec_atomic_bind]
  dsimp only
  rw [exec_atomic_bind, if_neg (by simp)]
  dsimp only
  rw [exec_throwIf_bind, if_neg hguard, hm]
  dsimp only
  rw [hcode]
  exact ⟨_, _, rfl, by rw [trim_removeSpace]⟩

lemma groups_of_firstMatch (hm : orderIdPattern.firstMatch text = some (pre, m)) :
    ∃ code, m.groups = [code] ∧ FollowsLabel text (removeSpace code) := by
  obtain ⟨l, rfl, hfirst, -⟩ := firstMatch_iff.mp hm
  obtain ⟨mid, tail, m', hlabel, hm', -, hgroups, -⟩ := first_orderIdPattern hfirst
  obtain ⟨gap, code, rfl, hgap, hcode, hrest, hcode', -⟩ := first_codePattern hm'
  exact ⟨code, hgroups.trans hcode',
    pre, l, mid, gap, code, _, rfl, hlabel, hgap, hcode, hrest, rfl⟩

/-- The text is from a shop, and its first label is blank. -/
def BlankCode (text : String) : Prop :=
  Branded text ∧ ∃ pre mid tail, BlankLabel text.toList pre mid tail

/-- What is returned is free of white space and follows a label. -/
lemma returned_follows (hfound : (ω 0).recognized = some found)
    (h : (createRecognition file).exec ω s = (.ok r, t)) :
    (∀ c ∈ r.orderId.toList, isSpace c = false) ∧
      FollowsLabel found.toList r.orderId.toList := by
  obtain ⟨-, pre, m, code, hm, hcode, hr⟩ := found_of_returns hfound h
  obtain ⟨code', hgroups, hfollows⟩ := groups_of_firstMatch hm
  rw [hgroups] at hcode
  cases hcode
  rw [hr, String.toList_ofList]
  exact ⟨by simp [removeSpace], hfollows⟩

lemma blankCode_of_returned (hfound : (ω 0).recognized = some found)
    (h : (createRecognition file).exec ω s = (.ok r, t)) (hempty : r.orderId = "") :
    BlankCode found := by
  obtain ⟨hbrand, pre, m, code, hm, hcode, hr⟩ := found_of_returns hfound h
  obtain ⟨code', hgroups, -⟩ := groups_of_firstMatch hm
  rw [hgroups] at hcode
  cases hcode
  have hnil : removeSpace code = [] := by
    have hlist := congrArg String.toList (hr.symm.trans hempty)
    rwa [String.toList_ofList] at hlist
  exact ⟨hbrand, pre, blankLabel_of_blank hm hgroups (by simpa [removeSpace] using hnil)⟩

/-- **When a recognized code is usable**: exactly when the first label of the text is not followed
by mere white space that the pattern takes for a code. What is returned is always free of white
space and follows a label. -/
theorem recognized_code_iff (text : String) :
    ((∀ file ω s r t, (ω 0).recognized = some text →
      (createRecognition file).exec ω s = (.ok r, t) → UsableCode text r.orderId) ↔
        ¬ BlankCode text) ∧
    ∀ file ω s r t, (ω 0).recognized = some text →
      (createRecognition file).exec ω s = (.ok r, t) →
        (∀ c ∈ r.orderId.toList, isSpace c = false) ∧
          FollowsLabel text.toList r.orderId.toList := by
  refine ⟨⟨?_, ?_⟩, fun file ω s r t => returned_follows⟩
  · rintro h ⟨hbrand, pre, mid, tail, hlabel⟩
    obtain ⟨m, code, hm, hgroups, hspace⟩ := blank_of_blankLabel hlabel
    obtain ⟨r, t, hexec, hr⟩ := returns_of_found hbrand hm (by rw [hgroups]; rfl)
    have hempty : removeSpace code = [] := by simpa [removeSpace] using hspace
    refine (h _ _ _ _ _ rfl hexec).nonempty ?_
    rw [hr, hempty]
  · intro hno file ω s r t hfound h
    obtain ⟨hnoSpace, hfollows⟩ := returned_follows hfound h
    exact ⟨fun hempty => hno (blankCode_of_returned hfound h hempty), hnoSpace, hfollows⟩

example : ((createRecognition (some "label.png")).exec
    (fun _ => ⟨default, some "Mã đơn hàng: ABC123\nSPX"⟩) ⟨∅⟩).1 = .ok ⟨"ABC123", "Shopee"⟩ := by
  decide +kernel

/-- A label without a code, a line end, and the form feed that ends a page. -/
def blankPage : String := "SPX\nMã đơn hàng:\n\x0c"

/-- The form feed is taken for the code, of which nothing is left. -/
theorem blank_code_returned : ¬ ∀ file ω s r t, (ω 0).recognized = some blankPage →
    (createRecognition file).exec ω s = (.ok r, t) → UsableCode blankPage r.orderId := by
  intro h
  have hexec : ((createRecognition (some "label.png")).exec
      (fun _ => ⟨default, some blankPage⟩) ⟨∅⟩).1 = .ok ⟨"", "Shopee"⟩ := by decide +kernel
  exact (h _ _ _ _ _ rfl (Prod.ext hexec rfl)).nonempty rfl

end Recognition

end TsaBackend
