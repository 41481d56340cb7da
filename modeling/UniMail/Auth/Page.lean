import UniMail.Lib.Substitution
import UniMail.Storage.Models

/-!
# The pages of the callback server

What the browser shows after the redirect. The values echoed back are escaped by four replacements,
one after the other over the whole text; `escape_html_lossless` says that this is as good as escaping
every character once, and `markup_errorResponse` that no message changes the markup of its page.
-/

namespace UniMail

/-- `str::replace` of a character. -/
def replaceChar (c : Char) (text s : String) : String :=
  String.ofList (Substitution.replace c text.toList s.toList)

/-- Minimal HTML-escaping for values echoed back into the success and error pages. -/
def escapeHtml (s : String) : String :=
  replaceChar '"' "&quot;" (replaceChar '>' "&gt;" (replaceChar '<' "&lt;" (replaceChar '&' "&amp;" s)))

/-- A response with its HTML. -/
structure Page where
  status : Nat
  body : String
  deriving DecidableEq, Repr

def successResponse (account : Account) : Page where
  status := 200
  body := "<html><head><title>UniMail — Connected</title></head>" ++
    "<body style=\"font-family:sans-serif;max-width:640px;margin:4rem auto;text-align:center\">" ++
    "<h1 style=\"color:#16a34a\">✅ Account connected</h1>" ++
    "<p><strong>" ++ escapeHtml account.emailAddress ++
    "</strong> is now connected to your unified inbox.</p>" ++
    "<p style=\"color:#64748b\">You can close this tab and return to UniMail.</p>" ++
    "</body></html>"

def errorResponse (message : String) : Page where
  status := 400
  body := "<html><head><title>UniMail — Error</title></head>" ++
    "<body style=\"font-family:sans-serif;max-width:640px;margin:4rem auto;text-align:center\">" ++
    "<h1 style=\"color:#dc2626\">❌ Connection failed</h1>" ++
    "<p>" ++ escapeHtml message ++ "</p>" ++
    "<p style=\"color:#64748b\">Close this tab and try again.</p>" ++
    "</body></html>"

/-! ### One pass -/

def entities : Substitution.Table Char :=
  [('&', "&amp;".toList), ('<', "&lt;".toList), ('>', "&gt;".toList), ('"', "&quot;".toList)]

/-- What a character is shown as. -/
def entityOf (c : Char) : String :=
  if c = '&' then "&amp;" else if c = '<' then "&lt;" else if c = '>' then "&gt;"
  else if c = '"' then "&quot;" else c.toString

/-- Every character is escaped once. -/
def escapeOnce (s : String) : String := String.join (s.toList.map entityOf)

/-- The entities are read back from left to right. -/
def unescapeHtml (s : String) : String :=
  String.ofList (Substitution.unescape entities s.toList)

theorem code_entities : Substitution.Code entities where
  staged := by
    unfold Substitution.Staged
    decide
  marked := by decide
  separate := by decide

theorem toList_escapeHtml (s : String) :
    (escapeHtml s).toList = Substitution.escape entities s.toList := by
  rw [← Substitution.replaceAll_eq_escape code_entities.staged]
  simp only [escapeHtml, replaceChar, String.toList_ofList]
  rfl

theorem escapeLetter_entities (c : Char) :
    Substitution.escapeLetter entities c = (entityOf c).toList := by
  unfold entityOf
  split_ifs with hamp hlt hgt hquot
  · subst hamp; rfl
  · subst hlt; rfl
  · subst hgt; rfl
  · subst hquot; rfl
  · have hnone : ∀ s ∈ entities, s.1 ≠ c := by
      simp only [entities, List.forall_mem_cons, ne_eq]
      exact ⟨Ne.symm hamp, Ne.symm hlt, Ne.symm hgt, Ne.symm hquot, by simp⟩
    rw [Substitution.escapeLetter_of_notMem hnone]
    simp [Char.toString]

theorem toList_escapeOnce (s : String) :
    (escapeOnce s).toList = Substitution.escape entities s.toList := by
  rw [escapeOnce, Substitution.escape]
  induction s.toList with
  | nil => rfl
  | cons c l ih =>
    rw [List.flatMap_cons, ← ih, escapeLetter_entities, List.map_cons, ← String.toList_append]
    congr 1
    simp

theorem unescapeHtml_escapeHtml (s : String) : unescapeHtml (escapeHtml s) = s := by
  rw [unescapeHtml, toList_escapeHtml, code_entities.unescape_escape, String.ofList_toList]

/-- No character of markup is left. -/
theorem notMem_escapeHtml {c : Char} (hc : c ∈ ['<', '>', '"']) (s : String) :
    c ∉ (escapeHtml s).toList := by
  have hentity : ∀ c ∈ ['<', '>', '"'], ∃ t ∈ entities, t.1 = c ∧ ∀ t ∈ entities, c ∉ t.2 := by
    simp only [List.mem_cons, List.not_mem_nil, or_false, forall_eq_or_imp, forall_eq]
    decide
  obtain ⟨t, ht, rfl, htexts⟩ := hentity c hc
  rw [toList_escapeHtml]
  exact code_entities.notMem_escape ht htexts s.toList

/-- **HTML escaping is safe and lossless.** -/
theorem escape_html_lossless :
    (∀ s, escapeHtml s = escapeOnce s ∧ (∀ c ∈ ['<', '>', '"'], c ∉ (escapeHtml s).toList) ∧
      (∀ past rest, (escapeHtml s).toList = past ++ '&' :: rest →
        ∃ entity ∈ ["&amp;", "&lt;", "&gt;", "&quot;"], entity.toList <+: '&' :: rest) ∧
      unescapeHtml (escapeHtml s) = s) ∧
    Function.Injective escapeHtml := by
  refine ⟨fun s => ⟨?_, fun c hc => notMem_escapeHtml hc s, ?_, unescapeHtml_escapeHtml s⟩, ?_⟩
  · rw [← String.toList_inj, toList_escapeHtml, toList_escapeOnce]
  · intro past rest heq
    rw [toList_escapeHtml] at heq
    have hamp : ('&', "&amp;".toList) ∈ entities := by decide
    have htails : ∀ t ∈ entities, '&' ∉ t.2.tail := by decide
    obtain ⟨t, ht, hbegins⟩ := code_entities.begins_text hamp htails s.toList heq
    have hlisted : ∀ t ∈ entities, ∃ entity ∈ ["&amp;", "&lt;", "&gt;", "&quot;"],
        entity.toList = t.2 := by
      decide
    obtain ⟨entity, hentity, htext⟩ := hlisted t ht
    exact ⟨entity, hentity, htext ▸ hbegins⟩
  · exact Function.LeftInverse.injective unescapeHtml_escapeHtml

example : escapeHtml "a<b & \"&lt;\"" = "a&lt;b &amp; &quot;&amp;lt;&quot;" := by decide

/-! ### Markup -/

/-- The characters of a text that make up its markup. -/
def markup (s : String) : List Char := s.toList.filter (· ∈ ['<', '>', '"'])

@[simp] theorem markup_append (s t : String) : markup (s ++ t) = markup s ++ markup t := by
  rw [markup, String.toList_append, List.filter_append]
  rfl

@[simp] theorem markup_escapeHtml (s : String) : markup (escapeHtml s) = [] := by
  rw [markup, List.filter_eq_nil_iff]
  intro c hc hmarkup
  exact notMem_escapeHtml (by simpa using hmarkup) s hc

/-- Whatever is echoed back, the markup of the page is the same. -/
theorem markup_errorResponse (message message' : String) :
    markup (errorResponse message).body = markup (errorResponse message').body := by
  simp only [errorResponse, markup_append, markup_escapeHtml]

theorem markup_successResponse (account account' : Account) :
    markup (successResponse account).body = markup (successResponse account').body := by
  simp only [successResponse, markup_append, markup_escapeHtml]

end UniMail
