import Mathlib.Data.List.Basic

/-! Lexical slash-separated paths: cleaning, joining and taking the last element. -/
namespace Filepath

/-- One element against the elements kept so far, innermost first. -/
def cleanElement (rooted : Bool) (stack : List (List Char)) (element : List Char) :
    List (List Char) :=
  if element = [] ∨ element = ['.'] then stack
  else if element = ['.', '.'] then
    match stack with
    | [] => if rooted then [] else [element]
    | top :: rest => if top = ['.', '.'] then element :: stack else rest
  else element :: stack

def clean (path : String) : String :=
  let chars := path.toList
  let rooted := chars.head? = some '/'
  let kept := ((chars.splitOn '/').foldl (cleanElement rooted) []).reverse
  let body := ['/'].intercalate kept
  if rooted then String.ofList ('/' :: body)
  else if body = [] then "."
  else String.ofList body

/-- Empty elements are ignored; the result is cleaned. -/
def join (elements : List String) : String :=
  let nonempty := elements.filter (· ≠ "")
  if nonempty = [] then ""
  else clean (String.ofList (['/'].intercalate (nonempty.map String.toList)))

def base (path : String) : String :=
  if path = "" then "."
  else
    let stripped := (path.toList.reverse.dropWhile (· = '/'))
    if stripped = [] then "/"
    else String.ofList (stripped.takeWhile (· ≠ '/')).reverse

/-- From the last dot of the last element on. -/
def ext (path : String) : String :=
  let tail := path.toList.reverse.takeWhile fun c => c ≠ '/' ∧ c ≠ '.'
  match path.toList.reverse.drop tail.length with
  | '.' :: _ => String.ofList ('.' :: tail.reverse)
  | _ => ""

example : clean "./data/recordings/../uploads//x" = "data/uploads/x" := by decide

end Filepath
