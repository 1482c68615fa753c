/-!
# Placeholders

A message template may hold placeholders: an argument's decimal index between braces. They are
filled one index after another, each time in all places of the text as it has become, so an inserted
argument may itself hold a placeholder of a later index.
-/

namespace Lexis.Text.Placeholder

/-- What follows `front` in a text that starts with it. -/
def after? : (front : List Char) → List Char → Option (List Char)
  | [], cs => some cs
  | _ :: _, [] => none
  | f :: fs, c :: cs => if f = c then after? fs cs else none

theorem length_of_after? {front cs rest : List Char} (h : after? front cs = some rest) :
    rest.length ≤ cs.length := by
  fun_induction after? front cs with
  | case1 => simp_all
  | case2 => simp at h
  | case3 _ _ _ ih => have := ih h; simp only [List.length_cons]; omega
  | case4 => simp at h

/-- Puts `value` in all places where the text holds an opening brace followed by `key`. -/
def replace (key value : List Char) : List Char → List Char
  | [] => []
  | c :: cs =>
    if c = '{' then
      match _h : after? key cs with
      | some rest => value ++ replace key value rest
      | none => c :: replace key value cs
    else c :: replace key value cs
termination_by cs => cs.length
decreasing_by
  · have := length_of_after? _h
    simp only [List.length_cons]
    omega
  all_goals simp

/-- The digits and closing brace of the placeholder with an index. -/
def key (index : Nat) : List Char := (toString index).toList ++ ['}']

/-- Fills the placeholders of index `index` and above with the arguments, one after another. -/
def fillFrom (index : Nat) : (arguments : List String) → List Char → List Char
  | [], cs => cs
  | a :: rest, cs => fillFrom (index + 1) rest (replace (key index) a.toList cs)

/-- Fills the placeholders of a template with its arguments, from index zero. -/
def fill (template : String) (arguments : List String) : String :=
  String.ofList (fillFrom 0 arguments template.toList)

/-! ## One placeholder -/

/-- What stands behind a front. -/
theorem after?_append (front rest : List Char) : after? front (front ++ rest) = some rest := by
  induction front with
  | nil => rfl
  | cons f front ih => rw [List.cons_append, after?, if_pos rfl, ih]

/-- Text without an opening brace is kept. -/
theorem replace_append {key value front : List Char} (h : '{' ∉ front) (cs : List Char) :
    replace key value (front ++ cs) = front ++ replace key value cs := by
  induction front with
  | nil => rfl
  | cons f front ih =>
    obtain ⟨hf, hfront⟩ := List.ne_and_not_mem_of_not_mem_cons h
    rw [List.cons_append, replace, if_neg (Ne.symm hf), ih hfront, List.cons_append]

/-- Nothing is replaced in a text without an opening brace. -/
theorem replace_of_not_mem {key value cs : List Char} (h : '{' ∉ cs) :
    replace key value cs = cs := by
  have hcs : replace key value (cs ++ []) = cs ++ replace key value [] := replace_append h []
  rwa [List.append_nil, replace, List.append_nil] at hcs

/-- A placeholder gives way to its value. -/
theorem replace_placeholder (key value rest : List Char) :
    replace key value ('{' :: (key ++ rest)) = value ++ replace key value rest := by
  rw [replace, if_pos rfl]
  split
  · next found h =>
    rw [after?_append] at h
    rw [Option.some.inj h]
  · next h =>
    rw [after?_append] at h
    simp at h

/-- A template with one placeholder holds the argument in its place. -/
theorem fill_one {front back : List Char} (hfront : '{' ∉ front) (hback : '{' ∉ back) (a : String) :
    fill (String.ofList (front ++ '{' :: (key 0 ++ back))) [a]
      = String.ofList (front ++ (a.toList ++ back)) := by
  rw [fill, String.toList_ofList, fillFrom, fillFrom, replace_append hfront, replace_placeholder,
    replace_of_not_mem hback]

/-! ## Before the first placeholder -/

/-- A text without an opening brace is left alone in front of another one. -/
theorem fillFrom_append {front : List Char} (h : '{' ∉ front) (index : Nat)
    (arguments : List String) (cs : List Char) :
    fillFrom index arguments (front ++ cs) = front ++ fillFrom index arguments cs := by
  induction arguments generalizing index cs with
  | nil => rfl
  | cons a rest ih => rw [fillFrom, fillFrom, replace_append h, ih]

theorem fillFrom_of_not_mem {cs : List Char} (h : '{' ∉ cs) (index : Nat)
    (arguments : List String) : fillFrom index arguments cs = cs := by
  induction arguments generalizing index with
  | nil => rfl
  | cons a rest ih => rw [fillFrom, replace_of_not_mem h, ih]

/-- The front of a template is kept up to its first brace, whatever the arguments are. -/
theorem take_fill {template : String} {n : Nat} (h : '{' ∉ template.toList.take n)
    (arguments : List String) :
    (fill template arguments).toList.take n = template.toList.take n := by
  rw [fill, String.toList_ofList]
  by_cases hlen : n ≤ template.toList.length
  · have hfill := fillFrom_append h 0 arguments (template.toList.drop n)
    rw [List.take_append_drop] at hfill
    rw [hfill, List.take_left' (List.length_take_of_le hlen)]
  · -- a short template is all front
    rw [List.take_of_length_le (by omega)] at h
    rw [fillFrom_of_not_mem h]

end Lexis.Text.Placeholder
