import DoubleSubmit.Http.Request

/-! Which session a request belongs to. A request without a session belongs to the anonymous one,
whose identifier is empty. -/

namespace DoubleSubmit

structure SessionProvider where
  find? : Http.Request → Option String

namespace SessionProvider

/-- The identifier of requests that have no session. -/
def anonymous : String := ""

/-- The session that stands for one that may be missing. -/
def orAnonymous (session : Option String) : String := session.getD anonymous

def session (provider : SessionProvider) (request : Http.Request) : String :=
  orAnonymous (provider.find? request)

def attached : SessionProvider := ⟨fun request => request.session⟩

def never : SessionProvider := ⟨fun _ => none⟩

def fixed (session : Option String) : SessionProvider := ⟨fun _ => session⟩

/-- The session that a header names, if its value is plain text. -/
def header (name : String) : SessionProvider := ⟨fun request => request.plainHeader? name⟩

end SessionProvider

end DoubleSubmit
