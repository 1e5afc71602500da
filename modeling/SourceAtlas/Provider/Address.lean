import SourceAtlas.Url

/-!
# Addresses of providers

The base URL that is used for a provider, from what the user names.

* `Provider.AddressFault`, `Provider.AddressFault.message`: why there is none;
* `Provider.baseUrl`.
-/

namespace SourceAtlas.Provider

/-- The base URL of the provider itself. -/
def defaultUrl : Text := "https://api.openai.com/v1"

/-- The hosts of the provider itself. -/
def ownHosts : List Text := ["openai.com", "www.openai.com", "api.openai.com"]

/-- Why there is no base URL. -/
inductive AddressFault where
  | empty
  | noHost (given : Text)
  | url (fault : Url.Fault)
deriving DecidableEq

def AddressFault.message : AddressFault → Text
  | empty => "Invalid OpenAI provider URL: value is empty."
  | noHost given => "Invalid OpenAI provider URL: expected host URL, got '" ++ given ++ "'."
  | url fault => fault.message

/-- The text without slashes at its end. -/
def withoutSlashes (t : Text) : Text := Text.trimEndBy (fun c => decide (c = Point.ofChar '/')) t

/-- The base URL for what the user names: the provider, one of its hosts, a host, or a URL. -/
def baseUrl (given : Text) : Except AddressFault Text := do
  let name := given.trim
  let lowered := withoutSlashes name.toLowerAscii
  if name.isEmpty then .error .empty
  else if lowered = Text.ofString "openai" ∨ ownHosts.contains lowered then return defaultUrl
  else
    let candidate := if name.contains "://" then name else "https://" ++ name
    let (scheme, authority) ← (Url.split candidate).mapError .url
    if scheme.isEmpty ∨ authority.isEmpty then .error (.noHost given)
    else if ownHosts.contains authority.toLowerAscii then return defaultUrl
    else return withoutSlashes candidate

end SourceAtlas.Provider
