import UrlRouting.Regex.Reader

/-!
# Reading plain text

What the reader of expressions does with the signs that the pattern of a template is
made of, under no flags. A character that is no metacharacter stands for itself, so
a plain text adds one leaf for each of its characters.
-/

namespace UrlRouting.Regex

/-- The characters that may mean something else than themselves. A closing brace does
not, on its own. -/
def metacharacters : List Char :=
  ['\\', '.', '+', '*', '?', '(', ')', '|', '[', ']', '\x7b', '\x7d', '^', '$']

/-- The leaf of a character that stands for itself. -/
def Pattern.char (c : Char) : Pattern :=
  .take (.single c)

/-- The piece of a character that stands for itself. -/
def Piece.char (c : Char) : Piece :=
  ⟨Pattern.char c, 0, true⟩

namespace Reading

/-- Adds pieces to the innermost group, from left to right. -/
def addAll (r : Reading) (pieces : List Piece) : Reading :=
  pieces.foldl add r

theorem addAll_cons (r : Reading) (piece : Piece) (pieces : List Piece) :
    r.addAll (piece :: pieces) = (r.add piece).addAll pieces := rfl

/-- Adding pieces changes the innermost group alone. -/
theorem addAll_eq (r : Reading) (pieces : List Piece) :
    r.addAll pieces =
      { r with level := { r.level with pieces := pieces.reverse ++ r.level.pieces } } := by
  induction pieces generalizing r with
  | nil => rfl
  | cons piece rest ih =>
    rw [addAll_cons, ih, List.reverse_cons, List.append_assoc]
    rfl

end Reading

/-! ## Token by token -/

/-- What every token that is read keeps holds of what is read in the end. -/
theorem readTokens_induction {motive : Reading → Prop}
    (hstep : ∀ {f : Flags} {cs rest : List Char} {token : Token} {r next : Reading},
      readToken f cs = some (token, rest) → r.apply token = some next → motive r → motive next)
    {r r' : Reading} {cs : List Char} (hr : motive r) (h : readTokens r cs = some r') :
    motive r' := by
  induction r, cs using readTokens.induct with
  | case1 r cs hskip =>
    rw [readTokens_of_skip_nil hskip] at h
    cases h
    exact hr
  | case2 r cs c tail hskip htoken =>
    rw [readTokens_of_readToken_none hskip htoken] at h
    cases h
  | case3 r cs c tail hskip token rest htoken _ happly =>
    rw [readTokens_of_readToken (hskip ▸ htoken), happly] at h
    cases h
  | case4 r cs c tail hskip token rest htoken _ next happly ih =>
    rw [readTokens_of_readToken (hskip ▸ htoken), happly, Option.bind_some] at h
    exact ih (hstep htoken happly hr) h

/-! ## One token -/

/-- Without flags nothing is passed over. -/
theorem Flags.skip_plain (cs : List Char) : ({} : Flags).skip cs = cs := rfl

/-- A token at the front of the text is read, does what it does, and the rest
follows. -/
theorem readTokens_of_token {r : Reading} {cs rest : List Char} {token : Token}
    (hflags : r.flags = {}) (htoken : readToken {} cs = some (token, rest)) :
    readTokens r cs = (r.apply token).bind fun r => readTokens r rest := by
  rw [← Flags.skip_plain cs, ← hflags] at htoken
  exact readTokens_of_readToken htoken

theorem readTokens_nil (r : Reading) : readTokens r [] = some r :=
  readTokens_of_skip_nil r.flags.skip_nil

theorem readToken_char {c : Char} (hc : c ∉ metacharacters) (rest : List Char) :
    readToken {} (c :: rest) = some (.leaf (Pattern.char c) 0, rest) := by
  simp only [metacharacters, List.mem_cons, List.not_mem_nil, or_false, not_or] at hc
  unfold readToken
  split <;> simp_all [literalLeaf, Flags.fold, Pattern.char]

/-- A plain text is read as its characters. -/
theorem readTokens_text (text rest : List Char) (r : Reading) (hflags : r.flags = {})
    (htext : ∀ c ∈ text, c ∉ metacharacters) :
    readTokens r (text ++ rest) = readTokens (r.addAll (text.map Piece.char)) rest := by
  induction text generalizing r with
  | nil => rfl
  | cons c text ih =>
    have hc : c ∉ metacharacters := htext c (List.mem_cons_self ..)
    rw [List.cons_append, readTokens_of_token hflags (readToken_char hc _)]
    exact ih (r.add (Piece.char c)) hflags fun d hd => htext d (List.mem_cons_of_mem c hd)

/-! ## Groups and repetitions -/

/-- One or more rounds of a leaf that takes a character. -/
theorem Reading.apply_again_take (r : Reading) (hflags : r.flags = {}) (cls : CharClass)
    (depth : Nat) (lazy : Bool) :
    (r.add ⟨.take cls, depth, true⟩).apply (.again 1 none lazy) =
      some (r.add ⟨.loop 1 none (!lazy) (.take cls), depth + 1, true⟩) := by
  have hgreedy : (lazy == r.flags.swapGreed) = !lazy := by
    rw [hflags]
    cases lazy <;> rfl
  show some (r.add ⟨Expr.repeated 1 none (lazy == r.flags.swapGreed) _, _, _⟩) = _
  rw [hgreedy]
  rfl

/-- A part that is taken or left out. -/
theorem Reading.apply_optional (r : Reading) (hflags : r.flags = {}) (e : Pattern)
    (depth : Nat) :
    (r.add ⟨e, depth, true⟩).apply (.again 0 (some 1) false) =
      some (r.add ⟨.loop 0 (some 1) true e, depth + 1, true⟩) := by
  have hgreedy : (false == r.flags.swapGreed) = true := by rw [hflags]; rfl
  show some (r.add ⟨Expr.repeated 0 (some 1) (false == r.flags.swapGreed) e, _, _⟩) = _
  rw [hgreedy, Expr.repeated]
  cases e.takesNothing <;> rfl

/-- The reading inside a group that captures, whose name is not taken yet. -/
def Reading.capturing (r : Reading) (name : Option String) : Reading :=
  { r.enter (some (r.captures + 1, name)) r.flags with
    captures := r.captures + 1
    names := name.toList ++ r.names }

theorem Reading.apply_capture (r : Reading) (name : Option String) :
    r.apply (.capture name) =
      if name.any r.names.contains then none else some (r.capturing name) := rfl

theorem Reading.apply_close {r : Reading} {parent : Level} {outer : List Level}
    (h : r.outer = parent :: outer) :
    r.apply .close = some { r with
      flags := r.level.outerFlags, level := parent.add r.level.close, outer := outer } := by
  rw [Reading.apply, h]

theorem cutAt_append {sep : Char} {before : List Char} (h : sep ∉ before)
    (after : List Char) :
    cutAt sep (before ++ sep :: after) = some (before, after) := by
  induction before with
  | nil => simp [cutAt]
  | cons c rest ih =>
    rw [List.mem_cons, not_or] at h
    obtain ⟨hne, hrest⟩ := h
    simp [cutAt, Ne.symm hne, ih hrest]

/-- The sign that closes a group name is no part of one. -/
theorem not_mem_of_isGroupName {name : List Char} (h : isGroupName name = true) :
    '>' ∉ name := by
  have hfirst : isNameChar true '>' = false := by decide
  have hrest : isNameChar false '>' = false := by decide
  cases name with
  | nil => simp
  | cons c rest =>
    rw [isGroupName, Bool.and_eq_true, List.all_eq_true] at h
    intro hmem
    rcases List.mem_cons.mp hmem with rfl | hmem
    · rw [hfirst] at h
      exact absurd h.1 (by simp)
    · have hbad := h.2 _ hmem
      rw [hrest] at hbad
      cases hbad

theorem readName_append {name : List Char} (h : isGroupName name = true)
    (rest : List Char) :
    readName (name ++ '>' :: rest) = some (String.ofList name, rest) := by
  rw [readName, cutAt_append (not_mem_of_isGroupName h)]
  exact if_pos h

/-- The start of a group under a name. -/
theorem readToken_named {name : String} (h : isGroupName name.toList = true)
    (rest : List Char) :
    readToken {} ('(' :: '?' :: 'P' :: '<' :: (name.toList ++ '>' :: rest)) =
      some (.capture (some name), rest) := by
  show (readName (name.toList ++ '>' :: rest)).map _ = _
  rw [readName_append h, String.ofList_toList]
  rfl

/-- A question mark that no second one follows. -/
theorem readToken_optional {rest : List Char} (h : rest.head? ≠ some '?') :
    readToken {} ('?' :: rest) = some (.again 0 (some 1) false, rest) := by
  show some (withLaziness 0 (some 1) rest) = _
  cases rest with
  | nil => rfl
  | cons c rest =>
    have hc : c ≠ '?' := fun heq => h (congrArg some heq)
    unfold withLaziness
    split
    · next heq =>
      cases heq
      exact absurd rfl hc
    · rfl

/-! ## Anchors -/

/-- The anchor at the front of a text. -/
def Piece.textStart : Piece := ⟨.test .textStart, 0, true⟩

/-- The anchor at the end of a text. -/
def Piece.textEnd : Piece := ⟨.test .textEnd, 0, true⟩

theorem readTokens_textStart (cs : List Char) :
    readTokens Reading.start ('^' :: cs) = readTokens (Reading.start.add Piece.textStart) cs := by
  have htoken : readToken {} ('^' :: cs) = some (.leaf (.test .textStart) 0, cs) := rfl
  have hclear : Reading.start.flags = {} := rfl
  exact readTokens_of_token hclear htoken

theorem readTokens_textEnd {r : Reading} (hline : r.flags.multiLine = false) :
    readTokens r ['$'] = some (r.add Piece.textEnd) := by
  have hskip : r.flags.skip ['$'] = ['$'] := by
    unfold Flags.skip
    split <;> rfl
  have htoken : readToken r.flags (r.flags.skip ['$']) =
      some (.leaf (.test .textEnd) 0, []) := by
    rw [hskip]
    show some (Token.leaf (.test r.flags.dollar) 0, []) = _
    rw [Flags.dollar, hline]
    rfl
  rw [readTokens_of_readToken htoken]
  exact readTokens_nil _

/-! ## The whole expression -/

theorem Level.expr_branch (l : Level) :
    l.branch.expr = Expr.concat (l.pieces.reverse.map (·.expr)) := by
  unfold Level.branch
  split
  · next h => rw [h]; rfl
  · next h => rw [h]; rfl
  · rfl

theorem Level.body_of_branches_eq_nil {l : Level} (h : l.branches = []) :
    l.body = l.branch := by
  unfold Level.body
  rw [h]
  rfl

/-- Without a bar, the whole is the pieces one after the other. -/
theorem Reading.expr_of_finish [SizeLimit] {r : Reading} {e : Pattern}
    (hbranches : r.level.branches = [])
    (h : r.finish = some e) : e = Expr.concat (r.level.pieces.reverse.map (·.expr)) := by
  obtain ⟨-, -, -, rfl⟩ := Reading.finish_eq_some_iff.mp h
  rw [Level.body_of_branches_eq_nil hbranches, Level.expr_branch]

/-! ## Classes -/

theorem readHyphens_of_head {c : Char} (rest : List Char) (b : Bracket) (hc : c ≠ '-') :
    readHyphens {} (c :: rest) b = (b, c :: rest) :=
  readHyphens_of_skip_ne b fun _ heq => hc (List.cons.inj heq).1

/-- One step inside the brackets of a class that stays inside. -/
theorem readBrackets_inside {current next : Bracket} {outer after : List Bracket}
    {cs rest : List Char}
    (h : bracketStep {} current outer cs = some (.inside next after rest)) :
    readBrackets {} current outer cs = readBrackets {} next after rest :=
  readBrackets_of_inside (Flags.skip_plain cs ▸ h)

theorem readBrackets_finished {current : Bracket} {outer : List Bracket}
    {cs rest : List Char}
    {part : ClassPart}
    (h : bracketStep {} current outer cs = some (.finished part rest)) :
    readBrackets {} current outer cs = some (part, rest) :=
  readBrackets_of_finished (Flags.skip_plain cs ▸ h)

end UrlRouting.Regex
