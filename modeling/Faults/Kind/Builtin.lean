import Faults.Kind.Basic

/-!
# The standard kinds

The tree that every process starts with: failures that a user can mend answer with a status in the
four hundreds, failures of the system with five hundred. Their serials are the first fourteen.
-/

namespace Faults.Kind

/-- Any failure that nothing else describes. -/
def error : Kind := root
  { serial := 0, name := "Error", code := "U00000"
    description := "Any error that has not been mapped in the application." }

/-- What a user did wrong. -/
def userError : Kind := under
  { serial := 1, name := "UserError", code := "E00001"
    description := "Any error that was caused by some incorrect user action."
    status := some 400 }
  error

/-- What went wrong in the system. -/
def systemError : Kind := under
  { serial := 2, name := "SystemError", code := "S00001"
    description := "Any error that was caused by some unexpected system failure."
    status := some 500 }
  error

/-- The kind of a foreign failure that is wrapped without naming a kind. -/
def unknownError : Kind := under
  { serial := 3, name := "UnknownError", code := "U00001"
    description := "A failure that carried no classification of its own." }
  error

/-- The kind of a received failure whose kind nobody here knows. -/
def externalUnknownError : Kind := under
  { serial := 4, name := "ExternalUnknownError", code := "U00002"
    description := "A failure received from another process whose kind is not registered here." }
  unknownError

def invalidRequestError : Kind := under
  { serial := 5, name := "InvalidRequestError", code := "E00002"
    description := "The request is incorrectly formatted or has errors in the request body."
    status := some 400 }
  userError

def notFoundError : Kind := under
  { serial := 6, name := "NotFoundError", code := "E00003"
    description := "The requested resource was not found in our system or external services."
    status := some 404 }
  userError

def validationError : Kind := under
  { serial := 7, name := "ValidationError", code := "E00004"
    description := "Some field on a form was filled incorrectly by the user or is missing."
    status := some 400 }
  userError

def authError : Kind := under
  { serial := 8, name := "AuthError", code := "E00005"
    description := "An error occurred during authentication, such as invalid credentials."
    status := some 401 }
  userError

def forbiddenError : Kind := under
  { serial := 9, name := "ForbiddenError", code := "E00006"
    description := "The user does not have permission to access the requested resource."
    status := some 403 }
  userError

def databaseTransactionError : Kind := under
  { serial := 10, name := "DatabaseTransactionError", code := "S00002"
    description := "A database transaction could not be started, committed or rolled back." }
  systemError

def databaseRecordNotFoundError : Kind := under
  { serial := 11, name := "DatabaseRecordNotFoundError", code := "S00003"
    description := "A query expected a record that does not exist." }
  systemError

def contextError : Kind := under
  { serial := 12, name := "ContextError", code := "S00004"
    description := "The request context is missing or malformed." }
  systemError

def contextValueNotFoundError : Kind := under
  { serial := 13, name := "ContextValueNotFoundError", code := "S00005"
    description := "A value expected in the request context was not set." }
  contextError

/-- Every standard kind, each after the kind it is placed under. -/
def builtin : List Kind :=
  [error, userError, systemError, unknownError, externalUnknownError, invalidRequestError,
   notFoundError, validationError, authError, forbiddenError, databaseTransactionError,
   databaseRecordNotFoundError, contextError, contextValueNotFoundError]

end Faults.Kind
