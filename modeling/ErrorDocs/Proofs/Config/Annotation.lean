import ErrorDocs.Proofs.Config.Acceptance
import ErrorDocs.Proofs.Json.Commented.TrailingComma

/-!
# Annotated configurations

Blanks, comments and trailing commas can be put into a configuration without changing it.

* **`ofText_of_annotates`**: an annotated text is the same configuration.
-/

namespace ErrorDocs.Config

open Json.Commented (Annotates Widens isQuoted_of_plain)

/-- **Comments and trailing commas do not change a configuration.** -/
theorem ofText_of_annotates {text text' : List Char} {c : Config}
    (h : Annotates .text text text') (htext : ofText text = .ok c) : ofText text' = .ok c := by
  cases hread : Json.Commented.read text with
  | error trouble =>
    rw [ofText, hread] at htext
    cases htext
  | ok v =>
    rw [ofText_of_read hread] at htext
    rw [ofText_of_read (Json.Commented.read_of_annotates h hread), htext]

/-- A configuration with texts inserted: before it, after its first colon, and before the end of
each container. A directory is named by two slashes. -/
def slashText (start colon items options sections : List Char) : List Char :=
  start ++ ([Json.leftBrace, '"', 'o', 'p', 't', 'i', 'o', 'n', 's', '"', ':'] ++
    (colon ++ ([Json.leftBrace, '"', 'i', 'g', 'n', 'o', 'r', 'e', 'D', 'i', 'r', 's', '"', ':',
      '[', '"', '/', '/', '"'] ++ (items ++ (']' :: (options ++ (Json.rightBrace ::
        (sections ++ [Json.rightBrace]))))))))

/-- The configuration in JSON. -/
def plainSlashes : List Char := slashText [] [] [] [] []

/-- The same with comments that hold quotes and ends of containers, and with commas at three
levels. -/
def annotatedSlashes : List Char :=
  slashText ['/', '*', '"', Json.leftBrace, '*', '/'] ['/', '/', ']', ',', Json.rightBrace, '\n']
    [',', '/', '*', ',', '*', '/'] [','] [',']

theorem annotates_slashes : Annotates .text plainSlashes annotatedSlashes := by
  have hblock : Widens [] ['/', '*', '"', Json.leftBrace, '*', '/'] :=
    @Widens.blockComment ['"', Json.leftBrace] [] [] (by decide) .nil
  have hline : Widens [] ['/', '/', ']', ',', Json.rightBrace, '\n'] :=
    @Widens.lineComment [']', ',', Json.rightBrace] [] [] (by decide) (by decide) .nil
  have hcomma : Widens [] ['/', '*', ',', '*', '/'] :=
    @Widens.blockComment [','] [] [] (by decide) .nil
  have hitem := isQuoted_of_plain ['/', '/'] (by simp)
  have hitems := Annotates.container (.lastComma .nil (.item (.scalar (.quoted hitem))) .nil hcomma)
  have hignore := isQuoted_of_plain ['i', 'g', 'n', 'o', 'r', 'e', 'D', 'i', 'r', 's'] (by simp)
  have hoptions :=
    Annotates.container (.lastComma .nil (.member hignore .nil .nil hitems) .nil .nil)
  have hname := isQuoted_of_plain ['o', 'p', 't', 'i', 'o', 'n', 's'] (by simp)
  have hsections :=
    Annotates.container (.lastComma .nil (.member hname .nil hline hoptions) .nil .nil)
  have htext := Annotates.text hblock hsections .nil
  exact htext

theorem ofText_of_annotates_slashes :
    ∃ c, ofText plainSlashes = .ok c ∧ Annotates .text plainSlashes annotatedSlashes ∧
      ofText annotatedSlashes = .ok c := by
  have hplain : ofText plainSlashes = .ok { options := { ignoreDirs := ["//"] } } := rfl
  exact ⟨_, hplain, annotates_slashes, ofText_of_annotates annotates_slashes hplain⟩

end ErrorDocs.Config
