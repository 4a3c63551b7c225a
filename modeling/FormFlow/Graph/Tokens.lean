/-!
The supply of tokens for generated ids.

A supply hands out its scripted tokens first and numbered ones after them. `search` draws until a token is wanted, at
most a given number of times.
-/

set_option autoImplicit false

namespace FormFlow

/-- Tokens still to be handed out: the scripted ones, then `later drawn`, `later (drawn + 1)`, …. -/
structure TokenSupply where
  scripted : List String
  later : Nat → String
  drawn : Nat

namespace TokenSupply

/-- The next token and the supply after it. -/
def draw (t : TokenSupply) : String × TokenSupply :=
  match t.scripted with
  | token :: rest => (token, { t with scripted := rest })
  | [] => (t.later t.drawn, { t with drawn := t.drawn + 1 })

/-- Draws until a token is wanted, at most `limit` times. -/
def search (wanted : String → Bool) : (limit : Nat) → TokenSupply → Option (String × TokenSupply)
  | 0, _ => none
  | limit + 1, t =>
    let (token, rest) := t.draw
    if wanted token then some (token, rest) else search wanted limit rest

/-- A name built from a token that is not taken yet. Past the scripted tokens, one more is drawn than names are
taken: of that many tokens without repetition one always gives a fresh name. -/
def freshName (build : String → String) (taken : List String) (t : TokenSupply) : Option (String × TokenSupply) :=
  (search (fun token => !taken.contains (build token)) (t.scripted.length + taken.length + 1) t).map
    fun (token, rest) => (build token, rest)

/-- Numbers in hexadecimal digits, eight at least, counted from one. -/
def numbered (n : Nat) : String :=
  let digits := Nat.toDigits 16 (n + 1)
  .ofList (List.replicate (8 - digits.length) '0' ++ digits)

/-- The supply of a list of tokens, with numbered ones after them. -/
def ofList (scripted : List String) : TokenSupply := ⟨scripted, numbered, 0⟩

end TokenSupply

end FormFlow
