namespace ReleaseJob

inductive LogLevel
  | info | debug | warn | error

def LogLevel.name : LogLevel → String
  | info => "INFO"
  | debug => "DEBUG"
  | warn => "WARN"
  | error => "ERROR"

structure LogLine where
  level : LogLevel
  text : String

end ReleaseJob
