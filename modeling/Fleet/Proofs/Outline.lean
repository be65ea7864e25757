import Fleet.Config.Read
import Fleet.Config.Write

/-!
# Outlines are not documents

A configuration that cannot be written is outlined, and its outline cannot be read: the colon behind its first two
words, which stand on two lines, would make them a key, and a key stands on one line (`Lexer.next_behindWords`).
-/

namespace Fleet

open Yaml

namespace Yaml

def outlineHead : List Char := "Config \x7b\n    common: ".toList

namespace Lexer

/-- The lexer behind the words that outlines begin with: they began on the line before. -/
def behindWords (rest : List Char) : Lexer where
  cursor := ⟨':' :: ' ' :: rest, 19, 1, 10⟩
  tokens := [.scalar .plain "Config \x7b common"]
  blockKey := some ⟨false, 0, 0, 0, 0⟩
  flowKeys := []
  indent := -1
  outer := []
  keyAllowed := false

theorem readPlain_head (rest : List Char) :
    readPlain false 0 (Cursor.start (outlineHead ++ rest)) =
      some ("Config \x7b common".toList, false, ⟨':' :: ' ' :: rest, 19, 1, 10⟩) := (rfl)

theorem next_head (rest : List Char) : (start (outlineHead ++ rest)).next = some (behindWords rest) := by
  have hskip : ∀ n, skipToToken (n + 1) (start (outlineHead ++ rest)) = start (outlineHead ++ rest) := fun _ => rfl
  have hstale : (start (outlineHead ++ rest)).dropStale = some (start (outlineHead ++ rest)) := rfl
  have hunindent : (start (outlineHead ++ rest)).unindent (start (outlineHead ++ rest)).cursor.column =
      start (outlineHead ++ rest) := rfl
  have hpeek : (start (outlineHead ++ rest)).cursor.peek = 'C' := rfl
  have hmark : (start (outlineHead ++ rest)).cursor.atDocumentMark = false := rfl
  have hplain : (start (outlineHead ++ rest)).atPlain = true := rfl
  have hread : (start (outlineHead ++ rest)).readPlainScalar = some (behindWords rest) := by
    have hnote : (start (outlineHead ++ rest)).noteKey =
        some { start (outlineHead ++ rest) with blockKey := some ⟨false, 0, 0, 0, 0⟩ } := rfl
    unfold readPlainScalar
    simp only [hnote, Option.bind_eq_bind, Option.bind_some]
    exact (congrArg (Option.bind · _) (readPlain_head rest)).trans rfl
  unfold next
  simp only [hskip, hstale, Option.bind_eq_bind, Option.bind_some, hunindent, hpeek, hmark, hplain, hread]
  simp [isEnd]

theorem next_behindWords (rest : List Char) : (behindWords rest).next = none := by
  have hskip : ∀ n, skipToToken (n + 1) (behindWords rest) = behindWords rest := fun _ => rfl
  have hstale : (behindWords rest).dropStale = some { behindWords rest with blockKey := none } := rfl
  have hunindent : { behindWords rest with blockKey := none }.unindent (behindWords rest).cursor.column =
      { behindWords rest with blockKey := none } := rfl
  have hpeek : (behindWords rest).cursor.peek = ':' := rfl
  have hapart : (behindWords rest).cursor.peekAt 1 = ' ' := rfl
  have hcolumn : (behindWords rest).cursor.column = 10 := rfl
  have hmark : (behindWords rest).cursor.atDocumentMark = false := rfl
  have hread : { behindWords rest with blockKey := none }.readColon = none := rfl
  unfold next
  simp only [hskip, hstale, Option.bind_eq_bind, Option.bind_some, hunindent, hpeek, hapart, hmark, hread]
  simp [isEnd, isGap, isSpace, hcolumn]

theorem run_eq (l : Lexer) (n : Nat) :
    run (n + 1) l =
      match l.tokens with
      | .streamEnd :: _ => some l.tokens.reverse
      | _ =>
        match l.next with
        | some l => run n l
        | none => none := (rfl)

theorem run_succ {l : Lexer} (n : Nat) (h : ∀ ts, l.tokens ≠ .streamEnd :: ts) :
    run (n + 1) l = l.next.bind (run n) := by
  rw [run_eq]
  split
  · rename_i hend
    exact absurd hend (h _)
  · cases l.next <;> rfl

theorem run_head (n : Nat) (rest : List Char) : run (n + 2) (start (outlineHead ++ rest)) = none := by
  have hstart : ∀ ts, (start (outlineHead ++ rest)).tokens ≠ .streamEnd :: ts := by simp [start]
  have hwords : ∀ ts, (behindWords rest).tokens ≠ .streamEnd :: ts := by simp [behindWords]
  rw [run_succ (n + 1) hstart, next_head, Option.bind_some, run_succ n hwords, next_behindWords, Option.bind_none]

end Lexer

theorem tokens?_head {s : String} {rest : List Char} (h : s.toList = outlineHead ++ rest) : tokens? s = none := by
  have hhead : s.toList.head? = some 'C' := by
    rw [h]
    rfl
  have hmark : s.toList.head? ≠ some byteOrderMark := by
    rw [hhead]
    decide
  have hrun : Lexer.run (s.toList.length + 2) (.start s.toList) = none := by
    rw [h]
    exact Lexer.run_head _ rest
  unfold tokens?
  simp only [if_neg hmark, hrun, ite_self]

end Yaml

namespace Config

theorem outline_begins (c : Config) : ∃ rest, c.outline.text.toList = outlineHead ++ rest := by
  rw [Text.Outline.text, String.toList_ofList]
  exact ⟨_, rfl⟩

theorem parse_outline (explain : String → String) (path : Path) (c : Config) :
    parse explain path (c.outline.text ++ "\n") =
      .error (.unreadableConfig path (explain (c.outline.text ++ "\n"))) := by
  obtain ⟨rest, hrest⟩ := c.outline_begins
  have hbegins : (c.outline.text ++ "\n").toList = outlineHead ++ (rest ++ "\n".toList) := by
    rw [String.toList_append, hrest, List.append_assoc]
  have htokens : tokens? (c.outline.text ++ "\n") = none := tokens?_head hbegins
  have hdocument : Document.parse? (c.outline.text ++ "\n") = none := by
    rw [Document.parse?, htokens]
    rfl
  rw [parse, hdocument]
  rfl

end Config

end Fleet
