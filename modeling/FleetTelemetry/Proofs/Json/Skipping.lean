import FleetTelemetry.Proofs.Json.Lexemes

/-!
# Skipping values

Exactly the values of the grammar are skipped, however deep they nest, and each of them to its end.
What is due of an input when skipping goes on in some state is said by the state: a value, or more
items of the innermost frame, and then the rest of each frame around it.
-/

namespace FleetTelemetry.Json

open Reader Text

variable {s mid rest : Bytes} {b : UInt8}

/-! ## Scalars -/

theorem outcome_word {cs : List Char} (hcs : ∀ c ∈ cs, c.toNat < 0x80) (rest : Bytes) :
    outcome (word cs) (encode cs ++ rest) = .ok ((), rest) :=
  reads_iff_outcome.mp (word_printed hcs rest)

private theorem skipStart_digit (hb : isDigitByte b = true) (outer : List Frame) :
    skipStart outer b = (do skipNumberFrom b; pure (complete outer)) := by
  unfold skipStart
  split
  case h_8 => rw [if_pos hb]
  all_goals
    rename_i h
    rw [← isDigit_toChar, h] at hb
    cases hb

theorem IsScalar.exists_cons {token : Bytes} (h : IsScalar token) :
    ∃ b t, token = b :: t ∧ isBlankByte b = false ∧ b ≠ 0x5D := by
  cases h with
  | null => exact ⟨_, _, rfl, by decide, by decide⟩
  | boolean value => cases value <;> exact ⟨_, _, rfl, by decide, by decide⟩
  | string => exact ⟨_, _, rfl, by decide, by decide⟩
  | negative => exact ⟨_, _, rfl, by decide, by decide⟩
  | unsigned h =>
    obtain ⟨b, t, rfl, hb⟩ := h.exists_cons
    refine ⟨b, t, rfl, ?_⟩
    simp only [isDigitByte, Bool.and_eq_true, decide_eq_true_eq, UInt8.le_iff_toNat_le] at hb
    have hlow : 48 ≤ b.toNat := hb.1
    have hhigh : b.toNat ≤ 57 := hb.2
    simp only [isBlankByte, Bool.or_eq_false_iff, decide_eq_false_iff_not, ne_eq,
      ← UInt8.toNat_inj, UInt8.reduceToNat]
    omega

private theorem outcome_skipStart_scalar {t : Bytes} (h : IsScalar (b :: t))
    (hrest : NumberEnds rest)
    (outer : List Frame) : outcome (skipStart outer b) (t ++ rest) = .ok (complete outer, rest) := by
  generalize htoken : b :: t = token at h
  cases h with
  | null =>
    obtain ⟨rfl, rfl⟩ := List.cons.inj htoken
    exact outcome_bind_of_ok (outcome_word (by simp) rest) _
  | boolean value =>
    cases value with
    | false =>
      obtain ⟨rfl, rfl⟩ := List.cons.inj htoken
      exact outcome_bind_of_ok (outcome_word (by simp) rest) _
    | true =>
      obtain ⟨rfl, rfl⟩ := List.cons.inj htoken
      exact outcome_bind_of_ok (outcome_word (by simp) rest) _
  | string htext =>
    obtain ⟨rfl, rfl⟩ := List.cons.inj htoken
    rw [List.append_assoc]
    exact outcome_bind_of_ok (outcome_skipString_eq_ok_iff.mpr ⟨_, htext, rfl⟩) _
  | unsigned hnumber =>
    subst htoken
    obtain ⟨_, _, heq, hb⟩ := hnumber.exists_cons
    cases heq
    rw [skipStart_digit hb]
    exact outcome_bind_of_ok (outcome_skipNumberFrom hnumber hrest) _
  | negative hnumber =>
    obtain ⟨rfl, rfl⟩ := List.cons.inj htoken
    exact outcome_bind_of_ok (outcome_skipNumber hnumber hrest) _

/-! ## Rounds -/

def skipBody (state : Skipping) (b : UInt8) : Reader (Skipping ⊕ Unit) :=
  if isBlankByte b then pure (.inl state) else skipRound state b

def skipFrom (state : Skipping) : Reader Unit := loop Skipping.endFault skipBody state

def goOn : Skipping ⊕ Unit → Reader Unit
  | .inl state => skipFrom state
  | .inr () => pure ()

private theorem outcome_skipFrom {t : Bytes} (hdrop : s.dropWhile isBlankByte = b :: t)
    (state : Skipping) :
    outcome (skipFrom state) s = outcome (skipRound state b >>= goOn) t := by
  have hblank (state : Skipping) (b : UInt8) (hb : isBlankByte b = true) :
      skipBody state b = pure (.inl state) := if_pos hb
  have hround : skipBody state b = skipRound state b :=
    if_neg (Bool.eq_false_iff.mp (isBlankByte_of_dropWhile hdrop))
  rw [skipFrom, outcome_loop_dropWhile hblank, hdrop, outcome_loop_cons, hround, outcome_bind]
  refine bind_congr fun round => ?_
  obtain ⟨next, mid⟩ := round
  cases next <;> rfl

/-! ## Values are skipped -/

def Frame.IsItem : Frame → List Bytes → Prop
  | .list, item => IsValue item
  | .object, item => ∃ member : Member, item = member.tokens ∧ IsStringText member.key ∧
      IsValue member.value

def SkipsValue (value : List Bytes) : Prop :=
  ∀ (outer : List Frame) (s rest : Bytes), Lexes value s rest → NumberEnds rest →
    outcome (skipFrom (.value outer)) s = outcome (goOn (complete outer)) rest

/-- An item of a frame is skipped after the opening mark and after a comma. -/
structure SkipsItem (frame : Frame) (item : List Bytes) : Prop where
  first : ∀ (outer : List Frame) (s rest : Bytes), Lexes item s rest → NumberEnds rest →
    outcome (skipFrom (.opened frame outer)) s = outcome (skipFrom (.after frame outer)) rest
  later : ∀ (outer : List Frame) (s rest : Bytes), Lexes item s rest → NumberEnds rest →
    outcome (frame.afterComma outer >>= goOn) s = outcome (skipFrom (.after frame outer)) rest

theorem IsValue.exists_cons {value : List Bytes} (h : IsValue value) :
    ∃ b token tokens, value = (b :: token) :: tokens ∧ isBlankByte b = false ∧ b ≠ 0x5D := by
  cases h with
  | scalar h =>
    obtain ⟨b, t, rfl, hb⟩ := h.exists_cons
    exact ⟨b, t, [], rfl, hb⟩
  | list => exact ⟨0x5B, [], _, rfl, by decide, by decide⟩
  | object => exact ⟨0x7B, [], _, rfl, by decide, by decide⟩

private theorem SkipsValue.skipsItem_list {value : List Bytes} (hvalue : IsValue value)
    (h : SkipsValue value) : SkipsItem .list value where
  first outer s rest hlex hrest := by
    obtain ⟨b, token, tokens, rfl, hblank, hclose⟩ := hvalue.exists_cons
    obtain ⟨mid, hdrop, -⟩ := (lexes_cons_iff_dropWhile hblank).mp hlex
    -- a value does not begin with the closing bracket, so it is skipped as one that is due
    have hround : skipRound (.opened .list outer) b = skipRound (.value (.list :: outer)) b :=
      if_neg fun heq => hclose (eq_of_toChar heq)
    have hskip := h (.list :: outer) s rest hlex hrest
    rw [outcome_skipFrom hdrop] at hskip ⊢
    rw [hround]
    exact hskip
  later outer s rest hlex hrest :=
    (outcome_bind_of_ok (outcome_pure _ s) goOn).trans (h (.list :: outer) s rest hlex hrest)

private theorem exists_outcome_skipKey {key : Bytes} {value : List Bytes} (hkey : IsStringText key)
    (h : Lexes ([0x3A] :: value) mid rest) :
    ∃ t, outcome skipKey (key ++ 0x22 :: mid) = .ok ((), t) ∧ Lexes value t rest := by
  obtain ⟨t, hcolon, hvalue⟩ := lexes_append_iff.mp (show Lexes ([[0x3A]] ++ value) mid rest from h)
  exact ⟨t, outcome_skipKey_eq_ok_iff.mpr ⟨key, mid, hkey, rfl, hcolon⟩, hvalue⟩

private theorem SkipsValue.skipsItem_object {member : Member} (hkey : IsStringText member.key)
    (h : SkipsValue member.value) : SkipsItem .object member.tokens where
  first outer s rest hlex hrest := by
    obtain ⟨mid, hdrop, hmore⟩ := (lexes_cons_iff_dropWhile (by decide)).mp hlex
    obtain ⟨t, hskip, hvalue⟩ := exists_outcome_skipKey hkey hmore
    have hround : skipRound (.opened .object outer) 0x22 =
        (do skipKey; pure (.inl (.value (.object :: outer)))) := rfl
    rw [outcome_skipFrom hdrop, hround, List.append_assoc]
    refine (outcome_bind_of_ok (outcome_bind_of_ok hskip _) _).trans ?_
    exact h (.object :: outer) t rest hvalue hrest
  later outer s rest hlex hrest := by
    obtain ⟨mid, hdrop, hmore⟩ := (lexes_cons_iff_dropWhile (by decide)).mp hlex
    obtain ⟨t, hskip, hvalue⟩ := exists_outcome_skipKey hkey hmore
    have hcomma : outcome (Frame.object.afterComma outer) s =
        .ok (.inl (.value (.object :: outer)), t) := by
      rw [Frame.afterComma, outcome_bind_of_ok (outcome_token s), hdrop, List.append_assoc]
      refine (outcome_bind_of_ok (outcome_drop _) _).trans ?_
      exact outcome_bind_of_ok hskip _
    rw [outcome_bind_of_ok hcomma]
    exact h (.object :: outer) t rest hvalue hrest

private theorem numberEnds_of_lexes {tokens : List Bytes} (h : Lexes ([b] :: tokens) s rest)
    (hb : NumberEnds [b]) : NumberEnds s := by
  obtain ⟨blanks, mid, hblanks, rfl, -⟩ := lexes_cons_iff.mp h
  cases blanks with
  | nil => exact hb
  | cons blank blanks =>
    have hblank := hblanks blank List.mem_cons_self
    intro b' hb'
    obtain rfl : blank = b' := Option.some.inj hb'
    simp only [isBlankByte, Bool.or_eq_true, decide_eq_true_eq] at hblank
    rcases hblank with ((rfl | rfl) | rfl) | rfl <;> decide

theorem numberEnds_of_separated {frame : Frame} {items : List (List Bytes)}
    (h : Lexes (separated frame.closing false items) s rest) : NumberEnds s := by
  cases items with
  | nil =>
    cases frame with
    | list => exact numberEnds_of_lexes h (numberEnds_bracket [])
    | object => exact numberEnds_of_lexes h (numberEnds_brace [])
  | cons item items => exact numberEnds_of_lexes h (numberEnds_comma [])

section Items

variable {frame : Frame} {outer : List Frame} {items : List (List Bytes)}

private theorem outcome_close {state : Skipping} (hstate : state = .opened frame outer ∨
      state = .after frame outer) (h : Lexes [frame.closing] s rest) :
    outcome (skipFrom state) s = outcome (goOn (complete outer)) rest := by
  cases frame
  all_goals
    have hdrop := (lexes_singleton_iff (by decide)).mp h
    rw [outcome_skipFrom hdrop]
    rcases hstate with rfl | rfl <;> exact outcome_bind_of_ok (outcome_pure (complete outer) rest) _

private theorem outcome_after (hitems : ∀ item ∈ items, SkipsItem frame item)
    (h : Lexes (separated frame.closing false items) s rest) :
    outcome (skipFrom (.after frame outer)) s = outcome (goOn (complete outer)) rest := by
  induction items generalizing s with
  | nil => exact outcome_close (.inr rfl) h
  | cons item items ih =>
    obtain ⟨mid, hdrop, hmore⟩ := (lexes_cons_iff_dropWhile (by decide)).mp h
    obtain ⟨t, hitem, hothers⟩ := lexes_append_iff.mp hmore
    have hskip := (hitems item List.mem_cons_self).later outer mid t hitem
      (numberEnds_of_separated hothers)
    have hround : skipRound (.after frame outer) 0x2C = frame.afterComma outer := rfl
    rw [outcome_skipFrom hdrop, hround]
    refine hskip.trans (ih (fun other hother => hitems other ?_) hothers)
    exact List.mem_cons_of_mem item hother

private theorem outcome_opened (hitems : ∀ item ∈ items, SkipsItem frame item)
    (h : Lexes (separated frame.closing true items) s rest) :
    outcome (skipFrom (.opened frame outer)) s = outcome (goOn (complete outer)) rest := by
  cases items with
  | nil => exact outcome_close (.inl rfl) h
  | cons item items =>
    obtain ⟨t, hitem, hothers⟩ := lexes_append_iff.mp h
    have hskip := (hitems item List.mem_cons_self).first outer s t hitem
      (numberEnds_of_separated hothers)
    refine hskip.trans (outcome_after (fun other hother => hitems other ?_) hothers)
    exact List.mem_cons_of_mem item hother

private theorem skipsValue_frame (hitems : ∀ item ∈ items, SkipsItem frame item) :
    SkipsValue (frame.tokens items) := by
  intro outer s rest hlex _
  have hopening : ∃ b, frame.opening = [b] ∧ isBlankByte b = false ∧
      skipRound (.value outer) b = pure (.inl (.opened frame outer)) := by
    cases frame with
    | list => exact ⟨0x5B, rfl, by decide, rfl⟩
    | object => exact ⟨0x7B, rfl, by decide, rfl⟩
  obtain ⟨b, hb, hblank, hround⟩ := hopening
  rw [Frame.tokens, hb] at hlex
  obtain ⟨mid, hdrop, hmore⟩ := (lexes_cons_iff_dropWhile hblank).mp hlex
  rw [outcome_skipFrom hdrop, hround, outcome_bind_of_ok (outcome_pure _ _)]
  exact outcome_opened hitems hmore

end Items

private theorem skipsValue_scalar {token : Bytes} (h : IsScalar token) : SkipsValue [token] := by
  intro outer s rest hlex hrest
  obtain ⟨b, t, rfl, hblank, -⟩ := h.exists_cons
  rw [outcome_skipFrom ((lexes_singleton_iff hblank).mp hlex)]
  exact outcome_bind_of_ok (outcome_skipStart_scalar h hrest outer) _

private theorem IsValue.skipsValue {value : List Bytes} (h : IsValue value) : SkipsValue value := by
  -- on how the value nests: what stands inside a frame is skipped wherever it is due
  induction h with
  | scalar h => exact skipsValue_scalar h
  | list h ih =>
    exact skipsValue_frame fun item hitem => (ih item hitem).skipsItem_list (h item hitem)
  | object hkeys h ih =>
    refine skipsValue_frame fun item hitem => ?_
    obtain ⟨member, hmember, rfl⟩ := List.mem_map.mp hitem
    exact (ih member hmember).skipsItem_object (hkeys member hmember)

/-! ## What is skipped is a value -/

/-- The other items of the open frames stand at the front of an input, each frame with its closing
mark. -/
def Closes : List Frame → Bytes → Bytes → Prop
  | [], s, rest => s = rest
  | frame :: outer, s, rest => ∃ items mid, (∀ item ∈ items, frame.IsItem item) ∧
      Lexes (separated frame.closing false items) s mid ∧ Closes outer mid rest

def Skipping.Due : Skipping → Bytes → Bytes → Prop
  | .value outer, s, rest => ∃ value mid, IsValue value ∧ Lexes value s mid ∧ Closes outer mid rest
  | .opened frame outer, s, rest => ∃ items mid, (∀ item ∈ items, frame.IsItem item) ∧
      Lexes (separated frame.closing true items) s mid ∧ Closes outer mid rest
  | .after frame outer, s, rest => Closes (frame :: outer) s rest

def DueNext : Skipping ⊕ Unit → Bytes → Bytes → Prop
  | .inl state, s, rest => state.Due s rest
  | .inr (), s, rest => s = rest

section Sound

variable {frame : Frame} {outer : List Frame} {state : Skipping} {next : Skipping ⊕ Unit}

private theorem closes_of_dueNext (h : DueNext (complete outer) s rest) : Closes outer s rest := by
  cases outer <;> exact h

private theorem isValue_frame {items : List (List Bytes)} (h : ∀ item ∈ items, frame.IsItem item) :
    IsValue (frame.tokens items) := by
  cases frame with
  | list => exact .list h
  | object =>
    have hmembers : ∃ members : List Member, items = members.map Member.tokens ∧
        ∀ member ∈ members, IsStringText member.key ∧ IsValue member.value := by
      induction items with
      | nil => exact ⟨[], rfl, by simp⟩
      | cons item items ih =>
        obtain ⟨member, rfl, hmember⟩ := h item List.mem_cons_self
        obtain ⟨members, rfl, hmembers⟩ := ih fun other hother =>
          h other (List.mem_cons_of_mem _ hother)
        exact ⟨member :: members, rfl, List.forall_mem_cons.mpr ⟨hmember, hmembers⟩⟩
    obtain ⟨members, rfl, hmembers⟩ := hmembers
    exact .object (fun member hmember => (hmembers member hmember).1)
      fun member hmember => (hmembers member hmember).2

private theorem outcome_scalar {reader : Reader Unit}
    (h : outcome (do reader; pure (complete outer)) s = .ok (next, mid))
    (hnext : DueNext next mid rest) :
    outcome reader s = .ok ((), mid) ∧ Closes outer mid rest := by
  obtain ⟨⟨⟩, t, hreader, hpure⟩ := outcome_bind_eq_ok.mp h
  cases hpure
  exact ⟨hreader, closes_of_dueNext hnext⟩

private theorem due_of_skipStart (h : outcome (skipStart outer b) s = .ok (next, mid))
    (hnext : DueNext next mid rest) : (Skipping.value outer).Due (b :: s) rest := by
  have hscalar {token : Bytes} (htoken : IsScalar token) (hs : b :: s = token ++ mid)
      (hcloses : Closes outer mid rest) : (Skipping.value outer).Due (b :: s) rest :=
    ⟨[token], mid, .scalar htoken, hs ▸ lexes_singleton token mid, hcloses⟩
  have hword {c : Char} {cs : List Char} (hb : toChar b = c)
      (hread : outcome (do word cs; pure (complete outer)) s = .ok (next, mid))
      (hcs : ∀ d ∈ c :: cs, d.toNat < 0x80) (htoken : IsScalar (encode (c :: cs))) :
      (Skipping.value outer).Due (b :: s) rest := by
    obtain ⟨hrest, hcloses⟩ := outcome_scalar hread hnext
    have hmore := eq_of_word (fun d hd => hcs d (List.mem_cons_of_mem c hd)) hrest
    refine hscalar htoken ?_ hcloses
    rw [encode_cons_of_lt (hcs c List.mem_cons_self), eq_of_toChar hb, hmore, List.cons_append]
  unfold skipStart at h
  split at h
  case h_1 hb => exact hword hb h (by simp) .null
  case h_2 hb => exact hword hb h (by simp) (.boolean true)
  case h_3 hb => exact hword hb h (by simp) (.boolean false)
  case h_4 hb =>
    obtain ⟨hstring, hcloses⟩ := outcome_scalar h hnext
    obtain ⟨text, htext, rfl⟩ := outcome_skipString_eq_ok_iff.mp hstring
    refine hscalar (.string htext) ?_ hcloses
    rw [eq_of_toChar hb, quote, List.cons_append, List.append_assoc]
    rfl
  case h_5 hb =>
    obtain ⟨hnumber, hcloses⟩ := outcome_scalar h hnext
    obtain ⟨text, htext, rfl⟩ := isUnsigned_of_skipNumber hnumber
    refine hscalar (.negative htext) ?_ hcloses
    rw [eq_of_toChar hb]
    rfl
  case h_6 hb =>
    cases h
    obtain ⟨items, t, hitems, hlex, hcloses⟩ := hnext
    rw [eq_of_toChar hb]
    exact ⟨Frame.list.tokens items, t, isValue_frame hitems, .front [0x5B] hlex, hcloses⟩
  case h_7 hb =>
    cases h
    obtain ⟨items, t, hitems, hlex, hcloses⟩ := hnext
    rw [eq_of_toChar hb]
    exact ⟨Frame.object.tokens items, t, isValue_frame hitems, .front [0x7B] hlex, hcloses⟩
  case h_8 =>
    split at h
    case isTrue hb =>
      obtain ⟨hnumber, hcloses⟩ := outcome_scalar h hnext
      obtain ⟨text, htext, rfl⟩ := isUnsigned_of_skipNumberFrom hb hnumber
      exact hscalar (.unsigned htext) rfl hcloses
    case isFalse => cases h

private theorem exists_member_of_skipKey {t : Bytes} (h : outcome skipKey s = .ok ((), t))
    (hdue : (Skipping.value (.object :: outer)).Due t rest) :
    ∃ member mid, Frame.object.IsItem (Member.tokens member) ∧
      Lexes member.tokens (0x22 :: s) mid ∧ Closes (.object :: outer) mid rest := by
  obtain ⟨key, u, hkey, rfl, hcolon⟩ := outcome_skipKey_eq_ok_iff.mp h
  obtain ⟨value, mid, hvalue, hlex, hcloses⟩ := hdue
  refine ⟨⟨key, value⟩, mid, ⟨_, rfl, hkey, hvalue⟩, ?_, hcloses⟩
  rw [← quote_append]
  exact .front (quote key) (hcolon.append hlex)

private theorem due_of_item {item : List Bytes} (hitem : frame.IsItem item)
    (hlex : Lexes item s mid) (hcloses : Closes (frame :: outer) mid rest) :
    (Skipping.opened frame outer).Due s rest ∧
      Closes (frame :: outer) (0x2C :: s) rest := by
  obtain ⟨items, t, hitems, hothers, houter⟩ := hcloses
  have hall := List.forall_mem_cons.mpr ⟨hitem, hitems⟩
  exact ⟨⟨item :: items, t, hall, hlex.append hothers, houter⟩,
    item :: items, t, hall, .front [0x2C] (hlex.append hothers), houter⟩

private theorem lexes_close {c : UInt8} (hc : toChar c = frame.close) :
    Lexes [frame.closing] (c :: s) s := by
  cases frame with
  | list =>
    rw [eq_of_toChar hc]
    exact lexes_singleton [0x5D] s
  | object =>
    rw [eq_of_toChar hc]
    exact lexes_singleton [0x7D] s

private theorem closes_of_afterComma (h : outcome (frame.afterComma outer) s = .ok (next, mid))
    (hnext : DueNext next mid rest) : Closes (frame :: outer) (0x2C :: s) rest := by
  cases frame with
  | list =>
    cases h
    obtain ⟨value, t, hvalue, hlex, hcloses⟩ := hnext
    exact (@due_of_item _ _ _ .list _ _ hvalue hlex hcloses).2
  | object =>
    rw [Frame.afterComma, outcome_bind_of_ok (outcome_token s)] at h
    split at h
    case h_1 => cases h
    case h_2 hmark =>
      obtain ⟨t, hdrop⟩ := exists_cons_of_head? hmark
      rw [hdrop, outcome_bind_of_ok (outcome_drop _)] at h
      obtain ⟨⟨⟩, u, hskip, hpure⟩ := outcome_bind_eq_ok.mp h
      cases hpure
      obtain ⟨member, v, hitem, hlex, hcloses⟩ := exists_member_of_skipKey hskip hnext
      have hblanks : Lexes member.tokens s v := .of_dropWhile (hdrop ▸ hlex)
      exact (due_of_item hitem hblanks hcloses).2
    case h_3 => cases h

private theorem due_of_skipRound (h : outcome (skipRound state b) s = .ok (next, mid))
    (hnext : DueNext next mid rest) : state.Due (b :: s) rest := by
  cases state with
  | value outer => exact due_of_skipStart h hnext
  | opened frame outer =>
    unfold skipRound at h
    dsimp only at h
    split at h
    case isTrue hclose =>
      cases h
      exact ⟨[], _, by simp, lexes_close hclose, closes_of_dueNext hnext⟩
    case isFalse =>
      cases frame with
      | list =>
        obtain ⟨value, t, hvalue, hlex, hcloses⟩ := due_of_skipStart h hnext
        exact (@due_of_item _ _ _ .list _ _ hvalue hlex hcloses).1
      | object =>
        dsimp only at h
        split at h
        case isTrue hquote =>
          obtain ⟨⟨⟩, u, hskip, hpure⟩ := outcome_bind_eq_ok.mp h
          cases hpure
          obtain ⟨member, v, hitem, hlex, hcloses⟩ := exists_member_of_skipKey hskip hnext
          rw [eq_of_toChar hquote]
          exact (due_of_item hitem hlex hcloses).1
        case isFalse => cases h
  | after frame outer =>
    unfold skipRound at h
    dsimp only at h
    split at h
    case isTrue hcomma =>
      rw [eq_of_toChar hcomma]
      exact closes_of_afterComma h hnext
    case isFalse =>
      split at h
      case isTrue hclose =>
        cases h
        exact ⟨[], _, by simp, lexes_close hclose, closes_of_dueNext hnext⟩
      case isFalse => cases h

theorem separated_ne_nil {items : List (List Bytes)} (hitems : ∀ item ∈ items, frame.IsItem item)
    (first : Bool) : ∃ token tokens, separated frame.closing first items = token :: tokens := by
  cases items with
  | nil => cases first <;> exact ⟨frame.closing, [], rfl⟩
  | cons item items =>
    cases first with
    | false => exact ⟨[0x2C], _, rfl⟩
    | true =>
      have hitem := hitems item List.mem_cons_self
      cases frame with
      | list =>
        obtain ⟨b, token, tokens, rfl, -, -⟩ := IsValue.exists_cons hitem
        exact ⟨b :: token, _, rfl⟩
      | object =>
        obtain ⟨member, rfl, -, -⟩ := hitem
        exact ⟨quote member.key, _, rfl⟩

private theorem Skipping.Due.blank (hb : isBlankByte b = true) (h : state.Due s rest) :
    state.Due (b :: s) rest := by
  cases state with
  | value outer =>
    obtain ⟨value, t, hvalue, hlex, hcloses⟩ := h
    obtain ⟨first, token, tokens, rfl, -, -⟩ := hvalue.exists_cons
    exact ⟨_, t, hvalue, hlex.blank hb, hcloses⟩
  | opened frame outer =>
    obtain ⟨items, t, hitems, hlex, hcloses⟩ := h
    obtain ⟨token, tokens, heq⟩ := separated_ne_nil hitems true
    rw [heq] at hlex
    exact ⟨items, t, hitems, heq ▸ hlex.blank hb, hcloses⟩
  | after frame outer =>
    obtain ⟨items, t, hitems, hlex, hcloses⟩ := h
    obtain ⟨token, tokens, heq⟩ := separated_ne_nil hitems false
    rw [heq] at hlex
    exact ⟨items, t, hitems, heq ▸ hlex.blank hb, hcloses⟩

private theorem due_of_rounds {a : Unit} (h : Rounds skipBody state s a rest) :
    state.Due s rest := by
  have hstep {state : Skipping} {next : Skipping ⊕ Unit} {b : UInt8} {s mid rest : Bytes}
      (h : outcome (skipBody state b) s = .ok (next, mid)) (hnext : DueNext next mid rest) :
      state.Due (b :: s) rest := by
    rw [skipBody] at h
    split at h
    case isTrue hblank =>
      cases h
      exact hnext.blank hblank
    case isFalse => exact due_of_skipRound h hnext
  -- from the last round, after which nothing is due, back to the first
  induction h with
  | answer h => exact hstep h rfl
  | round h _ ih => exact hstep h ih

end Sound

theorem exists_value_of_skipValue (h : outcome skipValue s = .ok ((), rest)) :
    ∃ value, IsValue value ∧ Lexes value s rest := by
  have hrounds : Rounds skipBody (.value []) s () rest := outcome_loop_eq_ok_iff.mp h
  obtain ⟨value, mid, hvalue, hlex, rfl⟩ := due_of_rounds hrounds
  exact ⟨value, hvalue, hlex⟩

theorem IsValue.outcome_skipValue {value : List Bytes} (h : IsValue value)
    (hlex : Lexes value s rest) (hrest : NumberEnds rest) :
    outcome skipValue s = .ok ((), rest) :=
  h.skipsValue [] s rest hlex hrest

end FleetTelemetry.Json
