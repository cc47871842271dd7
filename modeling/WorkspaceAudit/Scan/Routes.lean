import WorkspaceAudit.Finding.Basic
import WorkspaceAudit.Pattern.Build
import WorkspaceAudit.Pattern.Search
import WorkspaceAudit.Text.Located

/-!
# Routes without authentication

A route that changes data is reported if no line near it mentions authentication.
-/

namespace WorkspaceAudit

namespace Mark

open Pattern

/-- A word that hints at authentication. -/
def authentication : Pattern :=
  words ["auth", "guard", "protect", "middleware", "jwt", "session", "verify", "require",
    "authenticated", "isauth", "checkauth", "passport", "bearer", "token"]

/-- The name of a server framework. -/
def serverFramework : Pattern :=
  chain [lits ["express", "fastify", "@nestjs/core", "koa"], .wordEdge]

/-- The objects that routes are declared on. -/
def routeOwner : Pattern := words ["router", "app", "server"]

/-- The methods that change data. -/
def routeMethod : Pattern := words ["post", "put", "patch", "delete"]

/-- The declaration of a route that changes data; captures the method and the address. -/
def mutationRoute : Pattern :=
  let quote := CharSet.of "'\"`"
  chain [routeOwner, lit ".", .capture 1 routeMethod, blanks, lit "(", blanks, .char quote,
    .capture 2 (some₁ (.except "'\"`,")), .char quote]

/-- The call that declares a route which changes data. -/
def mutationCall : Pattern :=
  chain [.capture 1 routeOwner, lit ".", .capture 2 routeMethod, blanks, lit "("]

end Mark

/-- The text mentions authentication. -/
def mentionsAuthentication (text : List Char) : Bool := Mark.authentication.found text

/-- The lines around a line: two before it, the line itself and five after it. -/
def routeWindow (source : Located) (number : Nat) : List (List Char) :=
  (source.lines.take (number + 5)).drop (number - 3)

/-- The finding of a route at a line. -/
def routeFinding (path : String) (number : Nat) (method address : List Char) : Finding where
  scanner := .auth
  severity := .high
  title := "Unprotected " ++ String.ofList (method.map Text.capitalLatin) ++ " route"
  description := (Location.line path number).text ++ " - Route " ++ String.ofList address ++
    " may lack authentication middleware"
  location := .line path number
  remediation := some ("Add authentication middleware to mutation routes. " ++
    "Example: router.post('/path', authMiddleware, handler)")

/-- The routes in a text that change data and have no mention of authentication near them. -/
def unprotectedRoutes (path : String) (content : List Char) : List Finding :=
  if Mark.mutationCall.found content then
    let source := Located.ofContent content
    (Mark.mutationRoute.findAll content).filterMap fun hit =>
      let number := source.lineNumberAt hit.start
      if mentionsAuthentication (Text.joinLines (routeWindow source number)) then none
      else some (routeFinding path number ((hit.group? 1).getD []) ((hit.group? 2).getD []))
  else []

end WorkspaceAudit
