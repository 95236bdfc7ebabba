import Criterion.CommandLine.Response
import Mathlib.Data.String.Basic

/-!
# The environment of a call

Before a call is answered, its environment is set up line by line from the environment file. A file
without a line break is one line. Where there is no file the line is an empty one, and the environment is
the one that is inherited.
-/

namespace Criterion

/-! ## Texts of one line -/

/-- From any place of the text on, the separator is not met, and what is split off is the whole text. -/
theorem splitOnAux_of_notMem {c : Char} {behind : List Char} (h : c ∉ behind) (before : List Char) :
    String.splitOnAux (String.ofList (before ++ behind)) (String.ofList [c])
        0 ⟨String.utf8Len before⟩ 0 [] =
      [String.ofList (before ++ behind)] := by
  -- the induction is on what is still to be searched; the part being split off begins at zero throughout
  induction behind generalizing before with
  | nil =>
      have hend := (String.atEnd_of_valid before []).mpr rfl
      have hall := String.extract_of_valid [] before []
      simp only [List.append_nil, List.nil_append, String.utf8Len_nil, Nat.zero_add] at hend hall ⊢
      rw [String.splitOnAux, if_pos hend]
      exact congrArg (fun part => [part]) hall
  | cons d behind ih =>
      obtain ⟨hne, hbehind⟩ := List.ne_and_not_mem_of_not_mem_cons h
      have hend := mt (String.atEnd_of_valid before (d :: behind)).mp (List.cons_ne_nil d behind)
      have hd := String.get_of_valid before (d :: behind)
      have hc : String.Pos.Raw.get (String.ofList [c]) 0 = c := String.get_of_valid [] [c]
      have hdiffer : ¬ (d == c) = true := by simpa using hne.symm
      -- nothing of the separator has been matched, so the search goes on behind this character
      have hback : String.Pos.Raw.unoffsetBy ⟨String.utf8Len before⟩ 0 = ⟨String.utf8Len before⟩ := rfl
      rw [String.splitOnAux, if_neg hend, hd, hc, List.headD_cons, if_neg hdiffer, hback,
        String.next_of_valid]
      simpa using ih hbehind (before ++ [d])

/-- **A text without the separator is split into itself.** -/
theorem splitOn_of_notMem {c : Char} {text : String} (h : c ∉ text.toList) :
    text.splitOn (String.ofList [c]) = [text] := by
  rw [String.splitOn, if_neg (by simp)]
  simpa using splitOnAux_of_notMem h []

theorem Dotenv.load?_of_notMem {text : String} (h : '\n' ∉ text.toList) (env : Environment) :
    load? env text = load?.go env [text.toList] := by
  have hlines : text.splitOn "\n" = [text] := splitOn_of_notMem h
  rw [load?, hlines]
  rfl

namespace CommandLine

/-! ## Without a file -/

/-- Without an environment file the environment is the one that is inherited. -/
theorem environment?_of_none {files : Files} (h : files environmentFile = none)
    (inherited : Dotenv.Environment) : environment? files inherited = some inherited := by
  rw [environment?, h, Option.getD_none, Dotenv.load?_of_notMem (by decide)]
  rfl

end CommandLine

end Criterion
