import StanoPlatform.Axum.Cookie
import StanoPlatform.Axum.Methods
import StanoPlatform.Axum.Readiness
import StanoPlatform.Axum.Expiry
import StanoPlatform.Axum.ErrorBody
import StanoPlatform.Launcher.RequestId
import StanoPlatform.Launcher.Histogram
import StanoPlatform.Launcher.Cors
import StanoPlatform.Di.Threads
import StanoPlatform.Di.Inventory
import StanoPlatform.Di.Operations
import StanoPlatform.Di.Warm
import StanoPlatform.Di.SearchRun
import StanoPlatform.Macros.Injection
import StanoPlatform.Macros.Status
import StanoPlatform.Example.Access
import StanoPlatform.Launcher.Config
import StanoPlatform.Launcher.Routes
import StanoPlatform.Launcher.Outside
import StanoPlatform.Example.Privacy
import StanoPlatform.Example.Startup
import StanoPlatform.Example.Context
