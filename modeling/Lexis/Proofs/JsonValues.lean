import Lexis.Proofs.JsonNumbers

/-!
# Skipping values of JSON

The loop that skips a value keeps the brackets still open. Each value of the grammar is skipped,
however deep it nests (`skipValue_append`), and what is skipped is a value (`exists_of_skipValue`).

One way goes by induction on the value: skipping it comes to going on behind it, whatever brackets
are open around it. The other goes along the loop: what the open brackets still demand of the text
after a value (`Closes`) is carried from the end of the loop back to its start.
-/

namespace Lexis.Json

/-! ## Scalars -/

/-- The characters that a value may start with. -/
def valueStarts : List Char :=
  ['n', 't', 'f', '-', '"', '[', '{', '0', '1', '2', '3', '4', '5', '6', '7', '8', '9']

/-- No value begins with a blank. -/
theorem not_isBlank_of_mem_valueStarts {c : Char} (h : c ∈ valueStarts) : isBlank c = false := by
  have hall : valueStarts.all (fun c => !isBlank c) = true := by decide
  simpa using List.all_eq_true.mp hall c h

theorem mem_valueStarts_of_isDigit {d : Char} (h : isDigit d = true) : d ∈ valueStarts :=
  of_decide_eq_true (of_isDigit (p := fun d => decide (d ∈ valueStarts)) rfl h)

/-- No value begins with a closing bracket, so an empty row is told at once. -/
theorem close_not_mem_valueStarts (b : Bracket) : b.close ∉ valueStarts := by
  cases b <;> decide

theorem IsWhole.exists_cons {cs : List Char} (h : IsWhole cs) :
    ∃ d tail, cs = d :: tail ∧ isDigit d = true := by
  cases h with
  | zero => exact ⟨'0', [], rfl, rfl⟩
  | digits hd _ _ => exact ⟨_, _, rfl, hd⟩

theorem IsUnsigned.exists_cons {cs : List Char} (h : IsUnsigned cs) :
    ∃ d tail, cs = d :: tail ∧ isDigit d = true := by
  obtain ⟨whole, fraction, exponent, hwhole, -, -, rfl⟩ := h
  obtain ⟨d, tail, rfl, hd⟩ := hwhole.exists_cons
  exact ⟨d, _, rfl, hd⟩

/-- A scalar starts with a character of its own, behind which it is skipped. -/
theorem IsScalar.exists_cons {v : List Char} (h : IsScalar v) :
    ∃ c tail, v = c :: tail ∧ c ∈ valueStarts ∧ c ≠ '[' ∧ c ≠ '{' ∧
      ∀ rest, Delimits rest → skipScalar c (tail ++ rest) = .ok rest := by
  cases h with
  | word h =>
    simp only [words, List.mem_cons, List.not_mem_nil, or_false] at h
    rcases h with rfl | rfl | rfl
    all_goals exact ⟨_, _, rfl, by decide, by decide, by decide, fun rest _ => rfl⟩
  | number h =>
    rcases h with h | ⟨ds, h, rfl⟩
    · obtain ⟨d, tail, rfl, hd⟩ := h.exists_cons
      have hother : d ∉ ['[', '{', 'n', 't', 'f', '-'] := by
        intro hmem
        have hall : ['[', '{', 'n', 't', 'f', '-'].all (fun c => !isDigit c) = true := by decide
        have hnot := List.all_eq_true.mp hall d hmem
        rw [hd] at hnot
        cases hnot
      simp only [List.mem_cons, List.not_mem_nil, or_false, not_or] at hother
      obtain ⟨hlist, hobject, hn, ht, hf, hminus⟩ := hother
      refine ⟨d, tail, rfl, mem_valueStarts_of_isDigit hd, hlist, hobject, ?_⟩
      intro rest hrest
      simp only [skipScalar, hn, ht, hf, hminus, hd, if_false, if_true]
      exact skipNumber_append h hrest
    · refine ⟨'-', ds, rfl, by decide, by decide, by decide, ?_⟩
      intro rest hrest
      exact skipNumber_append h hrest
  | @string cs h =>
    refine ⟨'"', cs ++ ['"'], rfl, by decide, by decide, by decide, ?_⟩
    intro rest _
    rw [List.append_assoc]
    exact skipString_ok_iff.mpr ⟨cs, h, rfl⟩

/-- What is skipped as a scalar is one. -/
theorem exists_of_skipScalar {c : Char} {cs rest : List Char} (h : skipScalar c cs = .ok rest) :
    ∃ tail, IsScalar (c :: tail) ∧ cs = tail ++ rest := by
  unfold skipScalar at h
  -- the first character tells the sort: a word, a number, a string
  by_cases hn : c = 'n'
  · rw [if_pos hn] at h
    rw [hn]
    exact ⟨_, .word (by decide), passWord_ok_iff.mp h⟩
  rw [if_neg hn] at h
  by_cases ht : c = 't'
  · rw [if_pos ht] at h
    rw [ht]
    exact ⟨_, .word (by decide), passWord_ok_iff.mp h⟩
  rw [if_neg ht] at h
  by_cases hf : c = 'f'
  · rw [if_pos hf] at h
    rw [hf]
    exact ⟨_, .word (by decide), passWord_ok_iff.mp h⟩
  rw [if_neg hf] at h
  by_cases hminus : c = '-'
  · rw [if_pos hminus] at h
    rw [hminus]
    obtain ⟨ds, hds, rfl⟩ := exists_of_skipNumber h
    exact ⟨ds, .number (.inr ⟨ds, hds, rfl⟩), rfl⟩
  rw [if_neg hminus] at h
  by_cases hdigit : isDigit c = true
  · rw [if_pos hdigit] at h
    obtain ⟨ds, hds, hcs⟩ := exists_of_skipNumber h
    obtain ⟨d, tail, rfl, -⟩ := hds.exists_cons
    rw [List.cons_append, List.cons.injEq] at hcs
    obtain ⟨rfl, rfl⟩ := hcs
    exact ⟨tail, .number (.inl hds), rfl⟩
  rw [if_neg hdigit] at h
  by_cases hquote : c = '"'
  · rw [if_pos hquote] at h
    rw [hquote]
    obtain ⟨sp, hsp, rfl⟩ := skipString_ok_iff.mp h
    exact ⟨sp ++ ['"'], .string hsp, by simp⟩
  rw [if_neg hquote] at h
  cases h

/-! ## Keys -/

/-- Blanks may stand before the colon. -/
theorem passColon_ok_iff {cs rest : List Char} :
    passColon cs = .ok rest ↔ ∃ before, Blank before ∧ cs = before ++ ':' :: rest := by
  constructor
  · intro h
    unfold passColon at h
    split at h
    · cases h
    · next c tail hcs =>
      obtain ⟨before, hbefore, rfl⟩ := exists_blank_of_skipBlanks hcs
      split at h
      · next hc =>
        subst hc
        cases h
        exact ⟨before, hbefore, rfl⟩
      · cases h
  · rintro ⟨before, hbefore, rfl⟩
    simp only [passColon, skipBlanks_append_cons hbefore (show isBlank ':' = false from rfl),
      if_true]

/-- A key with its colon is the front of an entry. -/
theorem skipKey_ok_iff {cs rest : List Char} :
    skipKey cs = .ok rest ↔ ∃ front, Front .object front ∧ cs = front ++ rest := by
  constructor
  · intro h
    unfold skipKey at h
    split at h
    · cases h
    · next c tail hcs =>
      obtain ⟨before, hbefore, rfl⟩ := exists_blank_of_skipBlanks hcs
      split at h
      · next hc =>
        subst hc
        split at h
        · cases h
        · next hskip =>
          obtain ⟨key, hkey, rfl⟩ := skipString_ok_iff.mp hskip
          obtain ⟨after, hafter, rfl⟩ := passColon_ok_iff.mp h
          exact ⟨_, .object hbefore hkey hafter, by simp⟩
      · cases h
  · rintro ⟨front, hfront, rfl⟩
    cases hfront with
    | @object before key after hbefore hkey hafter =>
      have hskip : skipString (key ++ '"' :: (after ++ ':' :: rest)) = .ok (after ++ ':' :: rest) :=
        skipString_ok_iff.mpr ⟨key, hkey, rfl⟩
      have hcs : before ++ '"' :: key ++ '"' :: after ++ [':'] ++ rest =
          before ++ '"' :: (key ++ '"' :: (after ++ ':' :: rest)) := by simp
      rw [hcs, skipKey, skipBlanks_append_cons hbefore rfl]
      simp only [if_true, hskip]
      exact passColon_ok_iff.mpr ⟨after, hafter, rfl⟩

/-- The front of an entry is passed on the way to its value. -/
theorem toValue_ok_iff {b : Bracket} {opened opened' : List Bracket} {cs rest : List Char} :
    toValue b opened cs = .ok (opened', rest) ↔
      opened' = b :: opened ∧ ∃ front, Front b front ∧ cs = front ++ rest := by
  cases b with
  | list =>
    constructor
    · intro h
      cases h
      exact ⟨rfl, [], .list, rfl⟩
    · rintro ⟨rfl, front, hfront, rfl⟩
      cases hfront
      rfl
  | object =>
    constructor
    · intro h
      unfold toValue at h
      simp only at h
      split at h
      · cases h
      · next hkey =>
        cases h
        exact ⟨rfl, skipKey_ok_iff.mp hkey⟩
    · rintro ⟨rfl, h⟩
      simp only [toValue, skipKey_ok_iff.mpr h]

/-! ## A value is skipped -/

/-- A value begins with a character that tells its sort. -/
theorem IsValue.exists_cons {v : List Char} (h : IsValue v) :
    ∃ c tail, v = c :: tail ∧ c ∈ valueStarts := by
  cases h with
  | scalar h =>
    obtain ⟨c, tail, rfl, hc, -⟩ := h.exists_cons
    exact ⟨c, tail, rfl, hc⟩
  | empty b _ => exact ⟨b.opening, _, rfl, by cases b <;> decide⟩
  | @full b _ _ => exact ⟨b.opening, _, rfl, by cases b <;> decide⟩

/-- The first character of an entry that is no blank closes no bracket. -/
theorem Front.head {b : Bracket} {front before v : List Char} (hf : Front b front)
    (hb : Blank before) (hv : IsValue v) (rest : List Char) :
    ∃ c tail, skipBlanks (front ++ (before ++ (v ++ rest))) = c :: tail ∧ c ≠ b.close := by
  cases hf with
  | list =>
    obtain ⟨c, tail, rfl, hc⟩ := hv.exists_cons
    refine ⟨c, tail ++ rest, ?_, ?_⟩
    · exact skipBlanks_append_cons hb (not_isBlank_of_mem_valueStarts hc) _
    · rintro rfl
      exact close_not_mem_valueStarts _ hc
  | @object lead key after hlead _ _ =>
    refine ⟨'"', key ++ '"' :: (after ++ ':' :: (before ++ (v ++ rest))), ?_, by decide⟩
    simp only [List.append_assoc, List.cons_append, List.nil_append]
    exact skipBlanks_append_cons hlead rfl _

/-- A row that is not empty does not begin with its closing bracket. -/
theorem Derives.row_head {b : Bracket} {cs : List Char} (h : Derives (.row b) cs)
    (rest : List Char) :
    ∃ c tail, skipBlanks (cs ++ rest) = c :: tail ∧ c ≠ b.close := by
  cases h with
  | last hf hb hv _ =>
    simp only [List.append_assoc]
    exact hf.head hb hv _
  | more hf hb hv _ _ =>
    simp only [List.append_assoc]
    exact hf.head hb hv _

/-- Goes on skipping after a step. -/
def goOn (step : Except Refusal (List Bracket × List Char)) : Except Refusal (List Char) :=
  match step with
  | .error r => .error r
  | .ok ([], rest) => .ok rest
  | .ok (b :: opened, rest) => skipValues (b :: opened) rest

/-- Skipping goes on from every step until nothing is open. -/
theorem skipValues_eq_goOn (opened : List Bracket) (cs : List Char) :
    skipValues opened cs = goOn (skipStep opened cs) := by
  rw [skipValues]
  split
  · next h => rw [h]; rfl
  · next h => rw [h]; rfl
  · next h => rw [h]; rfl

theorem skipBlanks_skipBlanks (cs : List Char) : skipBlanks (skipBlanks cs) = skipBlanks cs := by
  obtain ⟨before, hbefore, hcs⟩ := exists_blank cs
  rw [← skipBlanks_append hbefore (skipBlanks cs), ← hcs]

/-- Blanks in front of an entry make no difference. -/
theorem goOn_toValue_skipBlanks (b : Bracket) (opened : List Bracket) (cs : List Char) :
    goOn (toValue b opened (skipBlanks cs)) = goOn (toValue b opened cs) := by
  cases b with
  | list =>
    show skipValues _ _ = skipValues _ _
    rw [skipValues_eq_goOn, skipValues_eq_goOn, skipStep, skipBlanks_skipBlanks, ← skipStep]
  | object =>
    have hkey : skipKey (skipBlanks cs) = skipKey cs := by
      rw [skipKey, skipBlanks_skipBlanks, ← skipKey]
    rw [toValue, hkey, ← toValue]

/-- Behind a value that stands among others, the loop goes on at the next comma or bracket. -/
theorem afterValue_append {b : Bracket} {opened : List Bracket} {after : List Char}
    (hafter : Blank after) (cs : List Char) :
    afterValue (b :: opened) (after ++ ',' :: cs) = toValue b opened cs := by
  rw [afterValue, skipBlanks_append_cons hafter rfl]
  simp only [if_true]

/-- A closing bracket ends the value that the row itself is. -/
theorem afterValue_append_close {b : Bracket} {opened : List Bracket} {after : List Char}
    (hafter : Blank after) (cs : List Char) :
    afterValue (b :: opened) (after ++ b.close :: cs) = afterValue opened cs := by
  rw [afterValue, skipBlanks_append_cons hafter b.not_isBlank_close]
  simp only [b.close_ne_comma, if_false, if_true]

theorem skipStep_opening {b : Bracket} {opened : List Bracket} {lead : List Char}
    (hlead : Blank lead) (cs : List Char) :
    skipStep opened (lead ++ b.opening :: cs) = afterOpen b opened cs := by
  have hblank : isBlank b.opening = false := by cases b <;> rfl
  rw [skipStep, skipBlanks_append_cons hlead hblank]
  cases b <;> rfl

/-- Behind an opening bracket, the loop goes to the first entry. -/
theorem goOn_afterOpen {b : Bracket} {opened : List Bracket} {cs : List Char}
    (h : Derives (.row b) cs) (rest : List Char) :
    goOn (afterOpen b opened (cs ++ rest)) = goOn (toValue b opened (cs ++ rest)) := by
  obtain ⟨c, tail, hcs, hc⟩ := h.row_head rest
  rw [← goOn_toValue_skipBlanks, afterOpen, hcs]
  simp only [hc, if_false]

/-- Skipping a part comes to going on behind it: behind a value, or behind the closing bracket of a
row. -/
theorem goOn_part {p : Part} {cs : List Char} (h : Derives p cs) (opened : List Bracket)
    (rest : List Char) :
    match p with
    | .value => ∀ lead, Blank lead → Delimits rest →
        skipValues opened (lead ++ (cs ++ rest)) = goOn (afterValue opened rest)
    | .row b =>
      goOn (toValue b opened (cs ++ b.close :: rest)) = goOn (afterValue opened rest) := by
  induction h generalizing opened rest with
  | scalar h =>
    intro lead hlead hrest
    obtain ⟨c, tail, rfl, hc, hlist, hobject, hskip⟩ := h.exists_cons
    rw [skipValues_eq_goOn, skipStep, List.cons_append,
      skipBlanks_append_cons hlead (not_isBlank_of_mem_valueStarts hc)]
    simp only [hlist, hobject, if_false, hskip rest hrest]
  | @empty b cs h =>
    intro lead hlead hrest
    rw [List.cons_append, List.cons_append, List.append_assoc, skipValues_eq_goOn,
      skipStep_opening hlead, afterOpen, List.singleton_append,
      skipBlanks_append_cons h b.not_isBlank_close]
    simp only [if_true]
  | full h ih =>
    intro lead hlead hrest
    rw [List.cons_append, List.cons_append, List.append_assoc, skipValues_eq_goOn,
      skipStep_opening hlead, goOn_afterOpen h]
    exact ih opened rest
  | @last b front before v after hf hb hv ha ih =>
    -- The bracket is open while its entry is skipped, so the entry is skipped inside it.
    have hvalue : toValue b opened (front ++ (before ++ (v ++ (after ++ b.close :: rest)))) =
        .ok (b :: opened, before ++ (v ++ (after ++ b.close :: rest))) :=
      toValue_ok_iff.mpr ⟨rfl, front, hf, rfl⟩
    simp only [List.append_assoc]
    rw [hvalue, ← afterValue_append_close ha rest]
    exact ih (b :: opened) _ before hb (ha.delimits_close b rest)
  | @more b front before v after cs hf hb hv ha h ihv ih =>
    have hvalue : toValue b opened
          (front ++ (before ++ (v ++ (after ++ ',' :: (cs ++ b.close :: rest))))) =
        .ok (b :: opened, before ++ (v ++ (after ++ ',' :: (cs ++ b.close :: rest)))) :=
      toValue_ok_iff.mpr ⟨rfl, front, hf, rfl⟩
    -- The comma leads to the entries behind it, which are a row of the same bracket.
    simp only [List.append_assoc, List.cons_append]
    rw [hvalue, ← ih opened rest, ← afterValue_append ha]
    exact ihv (b :: opened) _ before hb (ha.delimits_comma _)

/-- A value of the grammar is skipped where nothing follows that could be a part of it. -/
theorem skipValue_append {lead v rest : List Char} (hlead : Blank lead) (hv : IsValue v)
    (hrest : Delimits rest) : skipValue (lead ++ (v ++ rest)) = .ok rest :=
  goOn_part hv [] rest lead hlead hrest

/-! ## What is skipped is a value -/

/-- What the open brackets demand of the text after a value, up to where the outermost closes. -/
inductive Closes : List Bracket → List Char → List Char → Prop
  | nil {cs : List Char} : Closes [] cs cs
  | close {b : Bracket} {opened : List Bracket} {after cs rest : List Char} (ha : Blank after)
      (h : Closes opened cs rest) : Closes (b :: opened) (after ++ b.close :: cs) rest
  | more {b : Bracket} {opened : List Bracket} {after row cs rest : List Char} (ha : Blank after)
      (hrow : Derives (.row b) row) (h : Closes opened cs rest) :
      Closes (b :: opened) (after ++ ',' :: (row ++ b.close :: cs)) rest

/-- A value stands ahead, and behind it what closes the open brackets. -/
def Awaits (opened : List Bracket) (cs rest : List Char) : Prop :=
  ∃ lead v tail, Blank lead ∧ IsValue v ∧ Closes opened tail rest ∧ cs = lead ++ (v ++ tail)

/-- What a step leaves: nothing more to do, or a value that is awaited. -/
def Leaves (step : List Bracket × List Char) (rest : List Char) : Prop :=
  match step with
  | ([], cs) => cs = rest
  | (b :: opened, cs) => Awaits (b :: opened) cs rest

theorem Blank.append {before after : List Char} (hb : Blank before) (ha : Blank after) :
    Blank (before ++ after) := List.forall_mem_append.mpr ⟨hb, ha⟩

/-- Blanks in front of an entry are part of its front, or stand in front of its value. -/
theorem Front.blank_append {b : Bracket} {lead front before : List Char} (hf : Front b front)
    (hlead : Blank lead) (hb : Blank before) :
    ∃ front' before', Front b front' ∧ Blank before' ∧
      lead ++ (front ++ before) = front' ++ before' := by
  cases hf with
  | list => exact ⟨[], lead ++ before, .list, hlead.append hb, rfl⟩
  | object hlead' hkey hafter =>
    exact ⟨_, before, .object (hlead.append hlead') hkey hafter, hb, by simp⟩

theorem Derives.blank_append {b : Bracket} {lead cs : List Char} (h : Derives (.row b) cs)
    (hlead : Blank lead) : Derives (.row b) (lead ++ cs) := by
  cases h with
  | @last _ front before v after hf hb hv ha =>
    obtain ⟨front', before', hf', hb', heq⟩ := hf.blank_append hlead hb
    have hcs : lead ++ (front ++ before ++ v ++ after) = front' ++ before' ++ v ++ after := by
      rw [← heq]
      simp
    rw [hcs]
    exact .last hf' hb' hv ha
  | @more _ front before v after cs hf hb hv ha h =>
    obtain ⟨front', before', hf', hb', heq⟩ := hf.blank_append hlead hb
    have hcs : lead ++ (front ++ before ++ v ++ after ++ ',' :: cs) =
        front' ++ before' ++ v ++ after ++ ',' :: cs := by
      rw [← heq]
      simp
    rw [hcs]
    exact .more hf' hb' hv ha h

/-- An entry and what follows it up to the closing bracket are a row. -/
theorem exists_row_of_toValue {b : Bracket} {opened : List Bracket}
    {step : List Bracket × List Char} {cs rest : List Char} (h : toValue b opened cs = .ok step)
    (hstep : Leaves step rest) :
    ∃ row tail, Derives (.row b) row ∧ Closes opened tail rest ∧ cs = row ++ b.close :: tail := by
  obtain ⟨opened', cs'⟩ := step
  obtain ⟨rfl, front, hf, rfl⟩ := toValue_ok_iff.mp h
  obtain ⟨before, v, tail, hb, hv, hcloses, rfl⟩ := hstep
  cases hcloses with
  | @close _ _ after tail _ ha hcloses =>
    exact ⟨_, tail, .last hf hb hv ha, hcloses, by simp⟩
  | @more _ _ after row tail _ ha hrow hcloses =>
    exact ⟨_, tail, .more hf hb hv ha hrow, hcloses, by simp⟩

/-- What a step finds behind a value closes it, or goes on in its row. -/
theorem closes_of_afterValue {opened : List Bracket} {step : List Bracket × List Char}
    {cs rest : List Char} (h : afterValue opened cs = .ok step) (hstep : Leaves step rest) :
    Closes opened cs rest := by
  fun_induction afterValue opened cs with
  | case1 cs =>
    cases h
    have hrest : cs = rest := hstep
    rw [hrest]
    exact .nil
  | case2 => cases h
  | case3 b opened cs tail hcs =>
    obtain ⟨after, hafter, rfl⟩ := exists_blank_of_skipBlanks hcs
    obtain ⟨row, tail', hrow, hcloses, rfl⟩ := exists_row_of_toValue h hstep
    exact .more hafter hrow hcloses
  | case4 b opened cs tail hcs hcomma ih =>
    obtain ⟨after, hafter, rfl⟩ := exists_blank_of_skipBlanks hcs
    exact .close hafter (ih h)
  | case5 => cases h

/-- What a step finds behind an opening bracket is a row with its end. -/
theorem exists_of_afterOpen {b : Bracket} {opened : List Bracket} {step : List Bracket × List Char}
    {cs rest : List Char} (h : afterOpen b opened cs = .ok step) (hstep : Leaves step rest) :
    ∃ body tail, IsValue (b.opening :: body ++ [b.close]) ∧ Closes opened tail rest ∧
      cs = body ++ b.close :: tail := by
  unfold afterOpen at h
  split at h
  · cases h
  · next c tail hcs =>
    obtain ⟨before, hbefore, rfl⟩ := exists_blank_of_skipBlanks hcs
    split at h
    · next hc =>
      subst hc
      exact ⟨before, tail, .empty b hbefore, closes_of_afterValue h hstep, rfl⟩
    · obtain ⟨row, tail', hrow, hcloses, hcs'⟩ := exists_row_of_toValue h hstep
      refine ⟨before ++ row, tail', .full (hrow.blank_append hbefore), hcloses, ?_⟩
      rw [hcs', List.append_assoc]

/-- A step that goes on to the end has stood in front of a value. -/
theorem awaits_of_skipStep {opened : List Bracket} {step : List Bracket × List Char}
    {cs rest : List Char} (h : skipStep opened cs = .ok step) (hstep : Leaves step rest) :
    Awaits opened cs rest := by
  unfold skipStep at h
  split at h
  · cases h
  · next c tail hcs =>
    obtain ⟨lead, hlead, rfl⟩ := exists_blank_of_skipBlanks hcs
    split at h
    · next hc =>
      subst hc
      obtain ⟨body, tail', hv, hcloses, rfl⟩ := exists_of_afterOpen h hstep
      exact ⟨lead, _, tail', hlead, hv, hcloses, by simp [Bracket.opening]⟩
    · split at h
      · next hc =>
        subst hc
        obtain ⟨body, tail', hv, hcloses, rfl⟩ := exists_of_afterOpen h hstep
        exact ⟨lead, _, tail', hlead, hv, hcloses, by simp [Bracket.opening]⟩
      · split at h
        · cases h
        · next tail' hscalar =>
          obtain ⟨v, hv, rfl⟩ := exists_of_skipScalar hscalar
          exact ⟨lead, c :: v, tail', hlead, .scalar hv, closes_of_afterValue h hstep, rfl⟩

/-- What is skipped to the end is a value, and all that was open around it. -/
theorem awaits_of_skipValues {opened : List Bracket} {cs rest : List Char}
    (h : skipValues opened cs = .ok rest) : Awaits opened cs rest := by
  -- From the end of the loop back: what the next turn awaits is what this one leaves.
  fun_induction skipValues opened cs with
  | case1 => cases h
  | case2 opened cs tail hstep =>
    cases h
    exact awaits_of_skipStep hstep rfl
  | case3 opened cs b opened' tail hstep ih => exact awaits_of_skipStep hstep (ih h)

/-- What is skipped is a value, with blanks in front of it. -/
theorem exists_of_skipValue {cs rest : List Char} (h : skipValue cs = .ok rest) :
    ∃ lead v, Blank lead ∧ IsValue v ∧ cs = lead ++ (v ++ rest) := by
  obtain ⟨lead, v, tail, hlead, hv, hcloses, rfl⟩ := awaits_of_skipValues h
  cases hcloses
  exact ⟨lead, v, hlead, hv, rfl⟩

end Lexis.Json
